import ColonForth.Proofs.Alias.Chain
import ColonForth.Proofs.Session.Failure
import ColonForth.Proofs.Session.Lockstep

/-! Machines that may follow more aliases, in sessions that report no cycle. -/
namespace ColonForth
open ColonForth.Action

namespace Machine

/-- The machines are the same, seen from outside, but `m'` may follow at least as many aliases. -/
structure Deepens (m m' : Machine) : Prop where
  stack_eq : m'.stack = m.stack
  lookup?_eq : ∀ name, m'.dictionary.lookup? name = m.dictionary.lookup? name
  maxDepth_le : m.maxDepth ≤ m'.maxDepth

variable {m m' : Machine}

/-- A word that is no cycle does the same with a larger budget, since its chain ends within the
smaller one. -/
theorem evalWithin_of_le {budget budget' : Nat} (hle : budget ≤ budget') {word : String}
    (h : ∀ named, (m.evalWithin budget word).result ≠ .error (.definitionCycle named)) :
    m.evalWithin budget' word = m.evalWithin budget word := by
  rcases m.chainEnds_or_evalWithin_eq_failing budget word with
    ⟨n, hn, last, hends⟩ | ⟨later, -, hcycle⟩
  · rw [evalWithin_of_chainEnds hends hn, evalWithin_of_chainEnds hends (Nat.le_trans hn hle)]
  · exact absurd (congrArg Effect.result hcycle) (h later)

namespace Deepens

theorem meaning_eq (h : m.Deepens m') (word : String) : m'.meaning word = m.meaning word := by
  unfold meaning
  rw [h.lookup?_eq word]

theorem withStack (h : m.Deepens m') (s : Stack) :
    Deepens { m with stack := s } { m' with stack := s } :=
  ⟨rfl, h.lookup?_eq, h.maxDepth_le⟩

theorem withEntry (h : m.Deepens m') (name body : String) :
    Deepens { m with dictionary := m.dictionary.define name body }
      { m' with dictionary := m'.dictionary.define name body } := by
  refine ⟨h.stack_eq, fun other => ?_, h.maxDepth_le⟩
  simp only [Dictionary.lookup?_define, h.lookup?_eq other]

theorem evalWord_eq (h : m.Deepens m') {word : String}
    (hcycle : ∀ named, (m.evalWord word).result ≠ .error (.definitionCycle named)) :
    m'.evalWord word = m'.evalWithin m.maxDepth word := by
  have halike : (m.evalWord word).Alike Deepens (m'.evalWithin m.maxDepth word) :=
    alike_evalWithin_of_stack_eq h h.stack_eq h.meaning_eq h.withEntry h.withStack m.maxDepth word
  apply evalWithin_of_le h.maxDepth_le
  intro named hresult
  exact hcycle named (halike.result_eq.symm.trans hresult)

end Deepens

/-- The entries are the same as well, not only the bodies that they give. -/
def DeepensOnly (m m' : Machine) : Prop :=
  m.Deepens m' ∧ m'.dictionary = m.dictionary

namespace DeepensOnly

theorem withStack (h : m.DeepensOnly m') (s : Stack) :
    DeepensOnly { m with stack := s } { m' with stack := s } :=
  ⟨h.1.withStack s, h.2⟩

theorem withEntry (h : m.DeepensOnly m') (name body : String) :
    DeepensOnly { m with dictionary := m.dictionary.define name body }
      { m' with dictionary := m'.dictionary.define name body } :=
  ⟨h.1.withEntry name body, by rw [h.2]⟩

end DeepensOnly

end Machine

/-- Whatever relates the two machines relates them still after the session, provided that it lets
`m'` deepen `m` and that neither stacks nor definitions can break it. -/
theorem Session.alike_run_of_deepens {R : Machine → Machine → Prop} {m m' : Machine}
    (hdeepens : ∀ {m m'}, R m m' → m.Deepens m')
    (hentry : ∀ {m m' : Machine}, R m m' → ∀ name body,
      R { m with dictionary := m.dictionary.define name body }
        { m' with dictionary := m'.dictionary.define name body })
    (hwith : ∀ {m m' : Machine}, R m m' → ∀ s, R { m with stack := s } { m' with stack := s })
    (hR : R m m') {echo : Bool} {input : Input} {o : Outlet}
    (hcycle : ∀ token here left named, Session.Evaluates echo input m o token here left →
      ((evalToken token).run here left).result ≠ .error (.definitionCycle named)) :
    ((run echo input).run m o).Alike R ((run echo input).run m' o) := by
  apply alike_run hR
  intro token here here' left htoken hhere
  have hdeeper := hdeepens hhere
  apply alike_evalToken
  rw [hdeeper.evalWord_eq fun named hresult =>
    hcycle token here left named htoken (result_evalToken_of_error hresult left)]
  exact Machine.alike_evalWithin_of_stack_eq hhere hdeeper.stack_eq hdeeper.meaning_eq
    (hentry hhere) (hwith hhere) here.maxDepth token

/-- A machine that may follow more aliases writes the same in a session, ends it in the same way and
is left with the same stack and dictionary, provided that no token of the session was a cycle to the
machine that may follow fewer. -/
theorem run_of_deepens {m m' : Machine} (h : m.Deepens m') (echo : Bool) (input : Input)
    (o : Outlet)
    (hcycle : ∀ token here left named, Session.Evaluates echo input m o token here left →
      ((evalToken token).run here left).result ≠ .error (.definitionCycle named)) :
    let done := (Session.run echo input).run m o
    let deeper := (Session.run echo input).run m' o
    deeper.written = done.written ∧ deeper.result = done.result ∧
      deeper.machine.stack = done.machine.stack ∧
      (∀ name, deeper.machine.dictionary.lookup? name = done.machine.dictionary.lookup? name) ∧
      (m'.dictionary = m.dictionary → deeper.machine.dictionary = done.machine.dictionary) := by
  intro done deeper
  have halike : done.Alike Machine.Deepens deeper :=
    Session.alike_run_of_deepens id Machine.Deepens.withEntry Machine.Deepens.withStack h hcycle
  refine ⟨halike.written_eq, halike.result_eq, halike.machines.stack_eq,
    halike.machines.lookup?_eq, ?_⟩
  intro hsame
  have hentries : done.Alike Machine.DeepensOnly deeper :=
    Session.alike_run_of_deepens And.left Machine.DeepensOnly.withEntry
      Machine.DeepensOnly.withStack ⟨h, hsame⟩ hcycle
  exact hentries.machines.2

theorem run_of_deepens_test :
    let input : Input := ⟨Text.Utf8.encode "3 test\n", .endOfInput⟩
    let o : Outlet := .limited 9 "closed"
    (Machine.fresh 1).Deepens (.fresh 64) ∧
      ((Session.run false input).run (.fresh 64) o).written =
        ((Session.run false input).run (.fresh 1) o).written ∧
      ((Session.run false input).run (.fresh 64) o).result = .error (.io "closed") := by
  intro input o
  have hdeepens : (Machine.fresh 1).Deepens (.fresh 64) := ⟨rfl, fun _ => rfl, by decide⟩
  have hlines : input.lines = [Text.Utf8.encode "3 test\n"] := by decide
  have hfold : foldClause (Text.words "3 test\n") = .ok ["3", "test"] := rfl
  have hcycle : ∀ token here left named,
      Session.Evaluates false input (.fresh 1) o token here left →
        ((evalToken token).run here left).result ≠ .error (.definitionCycle named) := by
    rintro token here left named
      ⟨raw, start, before, after, bytes, tokens, hline, hecho, htokens, htoken⟩
    rw [hlines, comesTo_cons_iff] at hline
    obtain ⟨rfl, rfl, rfl⟩ := hline.resolve_right fun ⟨_, _, _, _, hnil⟩ => not_comesTo_nil hnil
    rw [Text.Utf8.decodeLossy_encode, hfold] at htokens
    cases htokens
    cases hecho
    simp only [comesTo_cons_iff, not_comesTo_nil, and_false, exists_false, or_false] at htoken
    rcases htoken with ⟨rfl, rfl, rfl⟩ | ⟨next, between, bytes, hnext, rfl, rfl, rfl⟩
    · have hresult : ((evalToken "3").run (.fresh 1) o).result = .ok .proceed := rfl
      simp [hresult]
    · cases hnext
      have hresult : ((evalToken "test").run ⟨⟨[3]⟩, .seeded, 1⟩ o).result =
          .error .stackUnderflow := rfl
      intro hresult'
      cases hresult.symm.trans hresult'
  obtain ⟨hwritten, hresult, -⟩ := run_of_deepens hdeepens false input o hcycle
  refine ⟨hdeepens, hwritten, hresult.trans ?_⟩
  rw [Session.run_eq]
  rfl

end ColonForth
