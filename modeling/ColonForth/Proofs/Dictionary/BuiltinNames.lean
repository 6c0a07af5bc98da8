import ColonForth.Proofs.Alias.Chain
import ColonForth.Proofs.Session.Lockstep
import Mathlib.Data.List.Forall2

/-! Entries under the names of builtin words. They can be written and are never read. -/
namespace ColonForth
open ColonForth.Action

/-- What a machine is given at a time: a line, or tokens that need not come from any line. -/
inductive Turn where
  | line (text : String)
  | tokens (texts : List String)

def Turn.action : Turn → Action Flow
  | .line text => interpretLine text
  | .tokens texts => evalTokens texts

theorem Dictionary.aliasOf?_name (d : Dictionary) (b : Builtin) : d.aliasOf? b.name = none :=
  if_pos ((Machine.mem_names_iff b.name).mpr ⟨b, rfl⟩)

namespace Machine

/-- The machines differ at most in the entries under names of builtin words. -/
structure AgreesOffBuiltins (m m' : Machine) : Prop where
  stack_eq : m'.stack = m.stack
  maxDepth_eq : m'.maxDepth = m.maxDepth
  lookup?_eq : ∀ name, (∀ b : Builtin, name ≠ b.name) →
    m'.dictionary.lookup? name = m.dictionary.lookup? name

/-- What each turn comes to on the machine that the turns before it lead to. -/
def outcomes (m : Machine) : List (Turn × Outlet) → List (Outcome Flow)
  | [] => []
  | (turn, o) :: given =>
    let done := turn.action.run m o
    done :: done.machine.outcomes given

variable {m m' : Machine}

theorem agreesOffBuiltins_define (m : Machine) (b : Builtin) (body : String) :
    m.AgreesOffBuiltins { m with dictionary := m.dictionary.define b.name body } := by
  refine ⟨rfl, rfl, fun name hname => ?_⟩
  rw [Dictionary.lookup?_define, if_neg (hname b)]

namespace AgreesOffBuiltins

theorem withStack (h : m.AgreesOffBuiltins m') (s : Stack) :
    AgreesOffBuiltins { m with stack := s } { m' with stack := s } :=
  ⟨rfl, h.maxDepth_eq, h.lookup?_eq⟩

theorem withEntry (h : m.AgreesOffBuiltins m') (name body : String) :
    AgreesOffBuiltins { m with dictionary := m.dictionary.define name body }
      { m' with dictionary := m'.dictionary.define name body } := by
  refine ⟨h.stack_eq, h.maxDepth_eq, fun other hother => ?_⟩
  simp only [Dictionary.lookup?_define, h.lookup?_eq other hother]

/-- No meaning is an entry under a builtin name. -/
theorem meaning_eq (h : m.AgreesOffBuiltins m') (word : String) :
    m'.meaning word = m.meaning word := by
  by_cases hname : ∃ b : Builtin, word = b.name
  · obtain ⟨b, rfl⟩ := hname
    rw [meaning_name, meaning_name]
  · have hlookup := h.lookup?_eq word fun b hb => hname ⟨b, hb⟩
    unfold meaning
    rw [hlookup]

theorem evalToken (h : m.AgreesOffBuiltins m') (token : String) (o : Outlet) :
    ((evalToken token).run m o).Alike AgreesOffBuiltins ((evalToken token).run m' o) := by
  apply alike_evalToken
  rw [evalWord, evalWord, h.maxDepth_eq]
  exact alike_evalWithin_of_stack_eq h h.stack_eq h.meaning_eq h.withEntry h.withStack
    m.maxDepth token

/-- The step: a turn does the same and leads to machines that agree again. -/
theorem turn (h : m.AgreesOffBuiltins m') (turn : Turn) (o : Outlet) :
    (turn.action.run m o).Alike AgreesOffBuiltins (turn.action.run m' o) := by
  cases turn with
  | line text =>
    apply alike_interpretLine h
    intro tokens _ token here here' left _ hhere
    exact hhere.evalToken token left
  | tokens texts =>
    apply alike_untilBye h
    intro token here here' left _ hhere
    exact hhere.evalToken token left

theorem outcomes (h : m.AgreesOffBuiltins m') (given : List (Turn × Outlet)) :
    List.Forall₂ (Outcome.Alike AgreesOffBuiltins) (m.outcomes given) (m'.outcomes given) := by
  induction given generalizing m m' with
  | nil => exact .nil
  | cons first given ih =>
    obtain ⟨turn, o⟩ := first
    have hturn := h.turn turn o
    exact .cons hturn (ih hturn.machines)

end AgreesOffBuiltins

theorem evalWord_of_chain_name {word : String} {n : Nat} {b : Builtin} (hn : n ≤ m.maxDepth)
    (h : m.dictionary.chain word n = some b.name) : m.evalWord word = m.perform b := by
  have hends : m.dictionary.ChainEnds word n b.name := ⟨h, m.dictionary.aliasOf?_name b⟩
  rw [evalWord, evalWithin_of_chainEnds hends hn, evalWithin_name]

/-- Entries under names of builtin words cannot be observed. Machines that differ in such entries
come to the same at every turn, whatever is defined on the way, and differ in such entries at most
after it. After every turn a builtin word still acts as itself, and so does each word that leads to
it through aliases. -/
theorem outcomes_of_agreesOffBuiltins (h : m.AgreesOffBuiltins m') (given : List (Turn × Outlet)) :
    List.Forall₂ (Outcome.Alike AgreesOffBuiltins) (m.outcomes given) (m'.outcomes given) ∧
      ∀ done ∈ m.outcomes given, ∀ (b : Builtin) word n, n ≤ done.machine.maxDepth →
        done.machine.dictionary.chain word n = some b.name →
          done.machine.evalWord word = done.machine.perform b := by
  refine ⟨h.outcomes given, ?_⟩
  intro done _ b word n hn hchain
  exact evalWord_of_chain_name hn hchain

theorem outcomes_of_agreesOffBuiltins_add :
    let m := fresh 64
    let m' : Machine := { m with dictionary := m.dictionary.define "+" "100" }
    let given : List (Turn × Outlet) :=
      [(.line ": + . ;", .endless), (.tokens ["1", "2", "test", "."], .endless)]
    let after : Machine := { m with dictionary := m.dictionary.define "+" "." }
    m.AgreesOffBuiltins m' ∧
      (m'.outcomes given).map Outcome.written =
        [Text.Utf8.encode " ok\n", Text.Utf8.encode "3"] ∧
      1 ≤ after.maxDepth ∧ after.dictionary.chain "test" 1 = some "+" ∧
      after.evalWord "test" = after.perform .add := by
  have hline : (Turn.line ": + . ;").action.run (fresh 64) .endless =
      ⟨{ fresh 64 with dictionary := (fresh 64).dictionary.define "+" "." }, .endless,
        Text.Utf8.encode " ok\n", .ok .proceed⟩ := rfl
  have htokens : (Turn.tokens ["1", "2", "test", "."]).action.run
      { fresh 64 with dictionary := (fresh 64).dictionary.define "+" "." } .endless =
        ⟨{ fresh 64 with dictionary := (fresh 64).dictionary.define "+" "." }, .endless,
          Text.Utf8.encode "3", .ok .proceed⟩ := rfl
  intro m m' given after
  have hagrees : m.AgreesOffBuiltins m' := agreesOffBuiltins_define m .add "100"
  have houtcomes : m.outcomes given = [⟨after, .endless, Text.Utf8.encode " ok\n", .ok .proceed⟩,
      ⟨after, .endless, Text.Utf8.encode "3", .ok .proceed⟩] := by
    simp only [given, m, after, outcomes, hline, htokens]
  obtain ⟨halike, hnames⟩ := outcomes_of_agreesOffBuiltins hagrees given
  have hwritten : (m.outcomes given).map Outcome.written =
      (m'.outcomes given).map Outcome.written := by
    rw [← List.forall₂_eq_eq_eq, List.forall₂_map_left_iff, List.forall₂_map_right_iff]
    exact halike.imp fun _ _ h => h.written_eq.symm
  rw [houtcomes] at hnames hwritten
  have hdepth : 1 ≤ after.maxDepth := show 1 ≤ 64 by decide
  have hchain : after.dictionary.chain "test" 1 = some "+" := rfl
  exact ⟨hagrees, hwritten.symm, hdepth, hchain,
    hnames _ List.mem_cons_self .add "test" 1 hdepth hchain⟩

end Machine

end ColonForth
