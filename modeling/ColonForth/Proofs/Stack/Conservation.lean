import ColonForth.Proofs.Dictionary.Reachable
import ColonForth.Proofs.Session.Course

/-! The account of the values on the stack: none is lost, doubled or made up. -/
namespace ColonForth
open Text
open ColonForth.Action

/-! ### The deeds of a word -/

inductive Deed where
  | pushed (n : Int)
  | printed (n : Int)
  | added
  deriving DecidableEq

namespace Deed

@[simp] def pushedValue? : Deed → Option Int
  | pushed n => some n
  | _ => none

@[simp] def printedValue? : Deed → Option Int
  | printed n => some n
  | _ => none

end Deed

/-- The word at the end of the chain, unless more than `budget` aliases lead there. -/
def Dictionary.lastWithin? (d : Dictionary) (budget : Nat) (word : String) : Option String :=
  match d.aliasOf? word, budget with
  | none, _ => some word
  | some _, 0 => none
  | some body, budget + 1 => d.lastWithin? budget body

theorem Dictionary.lastWithin?_eq_some_iff {d : Dictionary} {budget : Nat} {word last : String} :
    d.lastWithin? budget word = some last ↔ ∃ n ≤ budget, d.ChainEnds word n last := by
  fun_induction lastWithin? d budget word with
  | case1 budget word halias =>
    constructor
    · intro hlast
      obtain rfl := Option.some.inj hlast
      exact ⟨0, Nat.zero_le budget, rfl, halias⟩
    · rintro ⟨n, -, hlast, -⟩
      cases n with
      | zero => exact hlast
      | succ n =>
        rw [chain_succ_of_none halias] at hlast
        cases hlast
  | case2 word body halias =>
    refine iff_of_false (Option.some_ne_none last).symm ?_
    rintro ⟨n, hn, hends⟩
    obtain ⟨k, rfl, -⟩ := hends.exists_succ halias
    exact Nat.not_succ_le_zero k hn
  | case3 word body budget halias ih =>
    rw [ih]
    constructor
    · rintro ⟨n, hn, hends⟩
      exact ⟨n + 1, Nat.succ_le_succ hn, (chainEnds_succ halias).mpr hends⟩
    · rintro ⟨n, hn, hends⟩
      obtain ⟨k, rfl, hbody⟩ := hends.exists_succ halias
      exact ⟨k, Nat.le_of_succ_le_succ hn, hbody⟩

namespace Machine

def ownDeed? (m : Machine) (word : String) : Option Deed :=
  match m.meaning word with
  | .literal n => some (.pushed n)
  | .builtin .print => m.stack.pop?.map fun top => .printed top.1
  | .builtin .add => m.stack.add?.map fun _ => .added
  | _ => none

/-- The deed of a word is that of the last word of its chain. -/
def deed? (m : Machine) (word : String) : Option Deed :=
  (m.dictionary.lastWithin? m.maxDepth word).bind m.ownDeed?

def tokenDeeds (m : Machine) (o : Outlet) (tokens : List String) : List Deed :=
  (course evalToken m o tokens).filterMap fun stop => stop.2.1.deed? stop.1

/-- A rejected line does nothing. -/
def lineDeeds (m : Machine) (line : String) : List Deed :=
  match foldClause (words line) with
  | .error _ => []
  | .ok tokens => m.tokenDeeds .endless tokens

def deeds (m : Machine) : List String → List Deed
  | [] => []
  | line :: lines =>
    m.lineDeeds line ++ ((interpretLine line).run m .endless).machine.deeds lines

end Machine

/-- The deed is all that the effect does to the stack, and a printed value is what it prints. -/
inductive Accounts (before : Stack) (effect : Effect) : Option Deed → Prop
  | pushed (n : Int) (h : effect.machine.stack = before.push n) :
      Accounts before effect (some (.pushed n))
  | printed (n : Int) (h : before = effect.machine.stack.push n)
      (htext : effect.text = Numeral.decimal n) : Accounts before effect (some (.printed n))
  | added (rest : Stack) (left right : Int) (hbefore : before = (rest.push left).push right)
      (hafter : effect.machine.stack = rest.push (left + right)) :
      Accounts before effect (some .added)
  | nothing (h : effect.machine.stack = before) : Accounts before effect none

namespace Machine

theorem accounts_ownDeed? {m : Machine} {word : String} (h : m.dictionary.aliasOf? word = none) :
    Accounts m.stack (m.evalWord word) (m.ownDeed? word) := by
  unfold ownDeed?
  rw [evalWord, evalWithin.eq_def]
  cases hmeaning : m.meaning word with
  | builtin b =>
    cases b with
    | bye | printStack => exact .nothing rfl
    | print =>
      dsimp only
      rw [perform_print]
      cases hpop : m.stack.pop? with
      | none => exact .nothing rfl
      | some top =>
        exact .printed top.1 ((Stack.pop?_eq_some_iff _ _ _).mp hpop) (Numeral.join_decimalParts _)
    | add =>
      dsimp only
      rw [perform_add]
      cases hadd : m.stack.add? with
      | none => exact .nothing rfl
      | some sum =>
        obtain ⟨rest, left, right, hbefore, hafter⟩ := (Stack.add?_eq_some_iff _ _).mp hadd
        exact .added rest left right hbefore hafter
  | entry body =>
    rw [meaning_eq_entry_iff, h] at hmeaning
    cases hmeaning
  | definition =>
    refine .nothing ?_
    dsimp only [define]
    cases Definition.ofClause word <;> rfl
  | literal n => exact .pushed n rfl
  | unknown => exact .nothing rfl

/-- The step: a word does its deed, and nothing if its chain is too long. -/
theorem accounts_deed? (m : Machine) (word : String) :
    Accounts m.stack (m.evalWord word) (m.deed? word) := by
  unfold deed?
  cases hlast : m.dictionary.lastWithin? m.maxDepth word with
  | some last =>
    obtain ⟨n, hn, hends⟩ := Dictionary.lastWithin?_eq_some_iff.mp hlast
    rw [evalWord, evalWithin_of_chainEnds hends hn]
    exact accounts_ownDeed? hends.2
  | none =>
    rcases m.chainEnds_or_evalWithin_eq_failing m.maxDepth word with
      ⟨n, hn, last, hends⟩ | ⟨later, -, hcycle⟩
    · rw [Dictionary.lastWithin?_eq_some_iff.mpr ⟨n, hn, hends⟩] at hlast
      cases hlast
    · rw [evalWord, hcycle]
      exact .nothing rfl

end Machine

/-! ### The balance -/

/-- What was on the stack and was pushed is what is on the stack and was printed, and every sum has
made one cell of two. -/
structure Balanced (before after : Stack) (deeds : List Deed) : Prop where
  sum_eq : after.cells.sum + (deeds.filterMap Deed.printedValue?).sum =
    before.cells.sum + (deeds.filterMap Deed.pushedValue?).sum
  length_eq : after.cells.length + (deeds.filterMap Deed.printedValue?).length +
    deeds.count .added = before.cells.length + (deeds.filterMap Deed.pushedValue?).length

namespace Balanced

theorem refl (s : Stack) : Balanced s s [] :=
  ⟨rfl, rfl⟩

theorem append {before between after : Stack} {earlier later : List Deed}
    (hearlier : Balanced before between earlier) (hlater : Balanced between after later) :
    Balanced before after (earlier ++ later) := by
  constructor
  · have hsum := hearlier.sum_eq
    have hsum' := hlater.sum_eq
    rw [List.filterMap_append, List.filterMap_append, List.sum_append, List.sum_append]
    omega
  · have hlength := hearlier.length_eq
    have hlength' := hlater.length_eq
    rw [List.filterMap_append, List.filterMap_append, List.length_append, List.length_append,
      List.count_append]
    omega

theorem of_accounts {before : Stack} {effect : Effect} {deed : Option Deed}
    (h : Accounts before effect deed) : Balanced before effect.machine.stack deed.toList := by
  cases h with
  | pushed n h =>
    rw [h]
    constructor <;> simp [List.filterMap_cons]
  | printed n h =>
    rw [h]
    constructor <;> simp [List.filterMap_cons]
  | added rest left right hbefore hafter =>
    rw [hbefore, hafter]
    constructor <;> simp [List.filterMap_cons]
  | nothing h =>
    rw [h]
    exact refl before

theorem evalTokens (tokens : List String) (m : Machine) (o : Outlet) :
    Balanced m.stack ((evalTokens tokens).run m o).machine.stack (m.tokenDeeds o tokens) := by
  induction tokens generalizing m o with
  | nil => exact refl m.stack
  | cons token tokens ih =>
    have hfirst : Balanced m.stack ((evalToken token).run m o).machine.stack
        (m.deed? token).toList := by
      rw [evalToken, machine_delivered]
      exact of_accounts (m.accounts_deed? token)
    by_cases hproceed : ((evalToken token).run m o).result = .ok .proceed
    · obtain ⟨here, left, bytes, hrun⟩ := exists_run_of_result hproceed
      have hdeeds : m.tokenDeeds o (token :: tokens) =
          (m.deed? token).toList ++ here.tokenDeeds left tokens := by
        rw [Machine.tokenDeeds, course_cons_of_proceed hrun, List.filterMap_cons]
        cases m.deed? token <;> rfl
      rw [hrun] at hfirst
      rw [hdeeds, ColonForth.evalTokens, run_untilBye_cons_of_proceed hrun]
      exact hfirst.append (ih here left)
    · have hdeeds : m.tokenDeeds o (token :: tokens) = (m.deed? token).toList := by
        rw [Machine.tokenDeeds, course_cons_of_stop hproceed, List.filterMap_cons]
        cases m.deed? token <;> rfl
      rw [hdeeds, ColonForth.evalTokens, run_untilBye_cons_of_stop hproceed]
      exact hfirst

theorem interpretLine (line : String) (m : Machine) :
    Balanced m.stack ((interpretLine line).run m .endless).machine.stack (m.lineDeeds line) := by
  unfold Machine.lineDeeds
  cases htokens : foldClause (words line) with
  | error e =>
    rw [machine_interpretLine_rejected htokens]
    exact refl m.stack
  | ok tokens =>
    rw [machine_interpretLine htokens]
    exact evalTokens tokens m .endless

theorem afterLines (lines : List String) (m : Machine) :
    Balanced m.stack (m.afterLines (lines.map fun line => (line, .endless))).stack
      (m.deeds lines) := by
  induction lines generalizing m with
  | nil => exact refl m.stack
  | cons line lines ih => exact (interpretLine line m).append (ih _)

end Balanced

/-- Over any lines, whatever becomes of them, the values that are left and those that `.` has
printed sum up to the values that were there and those that numerals have pushed. The cells are as
many as pushes, prints and sums have made them. A word does the one deed that is counted of it, and
without a deed it leaves the stack alone. -/
theorem Machine.values_conserved (m : Machine) (lines : List String) :
    let after := m.afterLines (lines.map fun line => (line, .endless))
    let printed := (m.deeds lines).filterMap Deed.printedValue?
    let pushed := (m.deeds lines).filterMap Deed.pushedValue?
    after.stack.cells.sum + printed.sum = m.stack.cells.sum + pushed.sum ∧
      after.stack.cells.length + printed.length + (m.deeds lines).count .added =
        m.stack.cells.length + pushed.length ∧
      ∀ (here : Machine) (word : String),
        Accounts here.stack (here.evalWord word) (here.deed? word) := by
  intro after printed pushed
  have hbalanced := Balanced.afterLines lines m
  exact ⟨hbalanced.sum_eq, hbalanced.length_eq, accounts_deed?⟩

/-- The third line fails at its second `+`, and the fourth one is rejected. -/
example : (Machine.fresh 64).deeds ["2 40 test .", ": five 5 ;", "five 1 + + 3", ": x", "bye 9"] =
    [.pushed 2, .pushed 40, .added, .printed 42, .pushed 5, .pushed 1, .added] := rfl

end ColonForth
