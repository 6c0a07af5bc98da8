import ColonForth.Proofs.Session.Course
import ColonForth.Proofs.Word.Clause
import ColonForth.Session.Line
import Mathlib.Logic.ExistsUnique

/-! Failures of the language. Only a failing outlet can interrupt a token. -/
namespace ColonForth
open ColonForth.Action

namespace Machine

variable {m : Machine}

theorem perform_of_error {b : Builtin} {e : Error} (h : (m.perform b).result = .error e) :
    e.isRecoverable = true ∧ m.perform b = m.failing e := by
  cases b with
  | bye | printStack => cases h
  | print =>
    rw [perform_print] at h ⊢
    cases hpop : m.stack.pop? with
    | some top =>
      simp only [hpop] at h
      cases h
    | none =>
      simp only [hpop] at h ⊢
      cases h
      exact ⟨rfl, rfl⟩
  | add =>
    rw [perform_add] at h ⊢
    cases hadd : m.stack.add? with
    | some sum =>
      simp only [hadd] at h
      cases h
    | none =>
      simp only [hadd] at h ⊢
      cases h
      exact ⟨rfl, rfl⟩

theorem define_of_error {clause : String} {e : Error} (h : (m.define clause).result = .error e) :
    e.isRecoverable = true ∧ m.define clause = m.failing e := by
  cases hclause : Definition.ofClause clause with
  | ok d =>
    simp only [define, hclause] at h
    cases h
  | error e' =>
    simp only [define, hclause] at h ⊢
    obtain rfl := Except.error.inj h
    obtain rfl := Definition.ofClause_of_error hclause
    exact ⟨rfl, rfl⟩

/-- A word that fails has done nothing, however many aliases it led through. -/
theorem evalWithin_of_error {budget : Nat} {word : String} {e : Error}
    (h : (m.evalWithin budget word).result = .error e) :
    e.isRecoverable = true ∧ m.evalWithin budget word = m.failing e := by
  fun_induction evalWithin m budget word with
  | case1 budget word b hmeaning => exact perform_of_error h
  | case2 word body hmeaning =>
    cases h
    exact ⟨rfl, rfl⟩
  | case3 word body hmeaning budget ih => exact ih h
  | case4 budget word hmeaning => exact define_of_error h
  | case5 budget word n hmeaning => cases h
  | case6 budget word hmeaning =>
    cases h
    exact ⟨rfl, rfl⟩

end Machine

theorem result_of_delivered {α : Type} {m : Machine} {d : Delivery} {result : Except Error α}
    {e : Error} (h : (delivered m d result).result = .error e) (he : e.isRecoverable = true) :
    result = .error e := by
  unfold delivered at h
  split at h
  · exact h
  · cases h
    cases he

theorem run_evalToken_of_failing {m : Machine} {token : String} {e : Error}
    (h : m.evalWord token = m.failing e) (o : Outlet) :
    (evalToken token).run m o = ⟨m, o, [], .error e⟩ := by
  simp only [evalToken, h]
  rfl

theorem result_evalToken_of_error {m : Machine} {token : String} {e : Error}
    (h : (m.evalWord token).result = .error e) (o : Outlet) :
    ((evalToken token).run m o).result = .error e := by
  rw [run_evalToken_of_failing (Machine.evalWithin_of_error h).2]

theorem run_evalToken_of_error {m : Machine} {o : Outlet} {token : String} {e : Error}
    (h : ((evalToken token).run m o).result = .error e) (he : e.isRecoverable = true) :
    (evalToken token).run m o = ⟨m, o, [], .error e⟩ := by
  have hword : (m.evalWord token).result = .error e := result_of_delivered h he
  exact run_evalToken_of_failing (Machine.evalWithin_of_error hword).2 o

/-- A line that fails has come to a token that fails and changes nothing any more. -/
theorem exists_token_of_error {tokens : List String} {m : Machine} {o : Outlet} {e : Error}
    (h : ((evalTokens tokens).run m o).result = .error e) (he : e.isRecoverable = true) :
    ∃ taken token rest, tokens = taken ++ token :: rest ∧
      (evalTokens taken).run m o = ⟨((evalTokens tokens).run m o).machine,
        ((evalTokens tokens).run m o).outlet, ((evalTokens tokens).run m o).written,
        .ok .proceed⟩ ∧
      ((evalToken token).run ((evalTokens tokens).run m o).machine
        ((evalTokens tokens).run m o).outlet).result = .error e := by
  have hstop : ((untilBye evalToken tokens).run m o).result ≠ .ok .proceed := by
    intro hproceed
    have hresult := hproceed.symm.trans h
    cases hresult
  obtain ⟨taken, token, rest, here, left, bytes, rfl, htaken, htoken⟩ := exists_stop hstop
  have hrun := run_untilBye_of_stop htaken htoken rest
  have herror : ((evalToken token).run here left).result = .error e :=
    (congrArg Outcome.result hrun).symm.trans h
  rw [run_evalToken_of_error herror he] at hrun
  have hline : (evalTokens (taken ++ token :: rest)).run m o = ⟨here, left, bytes, .error e⟩ := by
    rw [evalTokens, hrun]
    simp only [List.append_nil]
  rw [hline]
  exact ⟨taken, token, rest, rfl, htaken, herror⟩

theorem run_interpretLine_rejected {line : String} {e : Error}
    (h : foldClause (Text.words line) = .error e) (m : Machine) :
    (interpretLine line).run m .endless = ⟨m, .endless, [Text.newlineByte], .ok .proceed⟩ := by
  have hline : interpretLine line = sayLine "" := by rw [interpretLine, h]
  rw [hline]
  rfl

/-- The tokens in front of the one at `i` proceed to what the whole line has led to, and the token
at `i` fails there with `e`. -/
def FailsAt (tokens : List String) (m : Machine) (o : Outlet) (e : Error) (i : Nat) : Prop :=
  let done := (evalTokens tokens).run m o
  ∃ token, tokens[i]? = some token ∧
    (evalTokens (tokens.take i)).run m o =
      ⟨done.machine, done.outlet, done.written, .ok .proceed⟩ ∧
    ((evalToken token).run done.machine done.outlet).result = .error e

variable {tokens : List String} {m : Machine} {o : Outlet} {e : Error} {i : Nat}

theorem exists_failsAt (h : ((evalTokens tokens).run m o).result = .error e)
    (he : e.isRecoverable = true) : ∃ i, FailsAt tokens m o e i := by
  obtain ⟨taken, token, rest, rfl, htaken, htoken⟩ := exists_token_of_error h he
  refine ⟨taken.length, token, ?_, ?_, htoken⟩
  · rw [List.getElem?_append_right (Nat.le_refl _), Nat.sub_self]
    rfl
  · rw [List.take_left]
    exact htaken

theorem FailsAt.exists_split (h : FailsAt tokens m o e i) :
    ∃ taken token rest here left bytes, tokens = taken ++ token :: rest ∧ taken.length = i ∧
      (evalTokens taken).run m o = ⟨here, left, bytes, .ok .proceed⟩ ∧
      ((evalToken token).run here left).result ≠ .ok .proceed := by
  obtain ⟨token, htoken, htaken, hfails⟩ := h
  obtain ⟨hlength, hget⟩ := List.getElem?_eq_some_iff.mp htoken
  refine ⟨tokens.take i, token, tokens.drop (i + 1), _, _, _, ?_,
    List.length_take_of_le (Nat.le_of_lt hlength), htaken, by simp [hfails]⟩
  rw [← hget, List.getElem_cons_drop, List.take_append_drop]

theorem FailsAt.le {j : Nat} (h : FailsAt tokens m o e i) (h' : FailsAt tokens m o e j) :
    j ≤ i := by
  obtain ⟨taken, token, rest, here, left, bytes, htokens, rfl, htaken, hstop⟩ := h.exists_split
  obtain ⟨taken', token', rest', here', left', bytes', htokens', rfl, htaken', -⟩ :=
    h'.exists_split
  exact length_le_of_stop (htokens.symm.trans htokens') htaken hstop htaken'

/-- Other tokens behind the one that fails lead to the same. -/
theorem FailsAt.run_others (h : FailsAt tokens m o e i) (others : List String) :
    (evalTokens (tokens.take (i + 1) ++ others)).run m o = (evalTokens tokens).run m o := by
  obtain ⟨taken, token, rest, here, left, bytes, rfl, rfl, htaken, hstop⟩ := h.exists_split
  have htake : (taken ++ token :: rest).take (taken.length + 1) = taken ++ [token] := by
    rw [List.take_length_add_append]
    rfl
  rw [htake, List.append_assoc, List.singleton_append]
  exact (run_untilBye_of_stop htaken hstop others).trans
    (run_untilBye_of_stop htaken hstop rest).symm

/-- A token that fails leaves the machine and the output as they were. A line that fails comes to
one token that fails; the tokens in front of it proceed and lead to what the line has led to, and
the tokens behind it do not matter. A rejected line does nothing but end its empty report. -/
theorem failure_leaves_prefix (m : Machine) (o : Outlet) :
    (∀ word e, ((evalToken word).run m o).result = .error e → e.isRecoverable = true →
      (evalToken word).run m o = ⟨m, o, [], .error e⟩) ∧
      (∀ tokens e, ((evalTokens tokens).run m o).result = .error e → e.isRecoverable = true →
        (∃! i, FailsAt tokens m o e i) ∧
          ∀ i, FailsAt tokens m o e i → ∀ others,
            (evalTokens (tokens.take (i + 1) ++ others)).run m o = (evalTokens tokens).run m o) ∧
      ∀ line e, foldClause (Text.words line) = .error e →
        (interpretLine line).run m .endless = ⟨m, .endless, [Text.newlineByte], .ok .proceed⟩ := by
  refine ⟨fun word e h he => run_evalToken_of_error h he, ?_,
    fun line e h => run_interpretLine_rejected h m⟩
  intro tokens e h he
  obtain ⟨i, hi⟩ := exists_failsAt h he
  refine ⟨⟨i, hi, fun j hj => Nat.le_antisymm (hi.le hj) (hj.le hi)⟩, ?_⟩
  intro j hj others
  exact hj.run_others others

/-- One of two cells has been printed when `test` fails, and the numeral behind `test` has not been
read. -/
theorem failure_leaves_prefix_test :
    (evalTokens ["1", "2", ".", "test", "5"]).run (.fresh 64) .endless =
        ⟨⟨⟨[1]⟩, .seeded, 64⟩, .endless, Text.Utf8.encode "2", .error .stackUnderflow⟩ ∧
      (∃! i, FailsAt ["1", "2", ".", "test", "5"] (.fresh 64) .endless .stackUnderflow i) ∧
      (evalTokens ["1", "2", ".", "test", "bye"]).run (.fresh 64) .endless =
        ⟨⟨⟨[1]⟩, .seeded, 64⟩, .endless, Text.Utf8.encode "2", .error .stackUnderflow⟩ ∧
      (evalToken "test").run (.fresh 64) .endless =
        ⟨.fresh 64, .endless, [], .error .stackUnderflow⟩ ∧
      (interpretLine "1 : x").run (.fresh 64) .endless =
        ⟨.fresh 64, .endless, [Text.newlineByte], .ok .proceed⟩ := by
  have hdone : (evalTokens ["1", "2", ".", "test", "5"]).run (.fresh 64) .endless =
      ⟨⟨⟨[1]⟩, .seeded, 64⟩, .endless, Text.Utf8.encode "2", .error .stackUnderflow⟩ := rfl
  have htest : ((evalToken "test").run (.fresh 64) .endless).result = .error .stackUnderflow := rfl
  have hclause : foldClause (Text.words "1 : x") = .error (.malformedDefinition "1 : x") := rfl
  have hfails : FailsAt ["1", "2", ".", "test", "5"] (.fresh 64) .endless .stackUnderflow 3 :=
    ⟨"test", rfl, rfl, rfl⟩
  obtain ⟨hword, hline, hrejected⟩ := failure_leaves_prefix (.fresh 64) .endless
  obtain ⟨hunique, hothers⟩ := hline _ .stackUnderflow (congrArg Outcome.result hdone) rfl
  have hbye := hothers 3 hfails ["bye"]
  rw [hdone] at hbye
  exact ⟨hdone, hunique, hbye, hword "test" .stackUnderflow htest rfl,
    hrejected "1 : x" (.malformedDefinition "1 : x") hclause⟩

end ColonForth
