import ColonForth.Proofs.Alias.Chain
import ColonForth.Proofs.Session.Failure
import ColonForth.Proofs.Session.Lockstep

/-! Cells below those that words work on. Only `.s` and a stack that runs empty show them. -/
namespace ColonForth
open ColonForth.Action

theorem Stack.exists_push_of_cells {s : Stack} {cells : List Int} {n : Int}
    (h : s.cells = cells ++ [n]) : ∃ rest : Stack, s = rest.push n ∧ rest.cells = cells := by
  refine ⟨⟨cells.reverse⟩, ?_, List.reverse_reverse cells⟩
  obtain ⟨topDown⟩ := s
  rw [Stack.cells, List.reverse_eq_iff, List.reverse_append] at h
  dsimp only at h
  rw [h]
  rfl

namespace Machine

/-- `m'` is `m` with the cells `below` under its stack. -/
structure StandsOn (below : List Int) (m m' : Machine) : Prop where
  cells_eq : m'.stack.cells = below ++ m.stack.cells
  dictionary_eq : m'.dictionary = m.dictionary
  maxDepth_eq : m'.maxDepth = m.maxDepth

/-- The chain of the word comes to the builtin word, and the machine follows it there. -/
def Performs (m : Machine) (word : String) (b : Builtin) : Prop :=
  ∃ n ≤ m.maxDepth, m.dictionary.chain word n = some b.name

namespace StandsOn

variable {below : List Int} {m m' : Machine}

theorem withStack (h : m.StandsOn below m') {s s' : Stack} (hs : s'.cells = below ++ s.cells) :
    StandsOn below { m with stack := s } { m' with stack := s' } :=
  ⟨hs, h.dictionary_eq, h.maxDepth_eq⟩

theorem withEntry (h : m.StandsOn below m') (name body : String) :
    StandsOn below { m with dictionary := m.dictionary.define name body }
      { m' with dictionary := m'.dictionary.define name body } := by
  refine ⟨h.cells_eq, ?_, h.maxDepth_eq⟩
  rw [h.dictionary_eq]

theorem exists_push (h : m.StandsOn below m') {rest : Stack} {n : Int}
    (hstack : m.stack = rest.push n) :
    ∃ rest' : Stack, m'.stack = rest'.push n ∧ rest'.cells = below ++ rest.cells := by
  apply Stack.exists_push_of_cells
  rw [h.cells_eq, hstack, Stack.cells_push, List.append_assoc]

theorem meaning_eq (h : m.StandsOn below m') (word : String) :
    m'.meaning word = m.meaning word := by
  unfold meaning
  rw [h.dictionary_eq]

theorem print (h : m.StandsOn below m')
    (hunderflow : (m.perform .print).result ≠ .error .stackUnderflow) :
    (m.perform .print).Alike (StandsOn below) (m'.perform .print) := by
  cases hpop : m.stack.pop? with
  | none =>
    simp only [Machine.perform_print, hpop] at hunderflow
    exact absurd rfl hunderflow
  | some top =>
    obtain ⟨rest', hstack', hcells⟩ := h.exists_push ((Stack.pop?_eq_some_iff _ _ _).mp hpop)
    have hpop' := (Stack.pop?_eq_some_iff _ _ _).mpr hstack'
    simp only [Machine.perform_print, hpop, hpop']
    exact ⟨h.withStack hcells, rfl, rfl⟩

theorem add (h : m.StandsOn below m')
    (hunderflow : (m.perform .add).result ≠ .error .stackUnderflow) :
    (m.perform .add).Alike (StandsOn below) (m'.perform .add) := by
  cases hadd : m.stack.add? with
  | none =>
    simp only [Machine.perform_add, hadd] at hunderflow
    exact absurd rfl hunderflow
  | some sum =>
    obtain ⟨rest, left, right, hstack, rfl⟩ := (Stack.add?_eq_some_iff _ _).mp hadd
    obtain ⟨s', hright, hs'⟩ := h.exists_push hstack
    rw [Stack.cells_push, ← List.append_assoc] at hs'
    obtain ⟨rest', rfl, hrest'⟩ := Stack.exists_push_of_cells hs'
    have hadd' := (Stack.add?_eq_some_iff _ _).mpr ⟨rest', left, right, hright, rfl⟩
    simp only [Machine.perform_add, hadd, hadd']
    refine ⟨h.withStack ?_, rfl, rfl⟩
    rw [Stack.cells_push, Stack.cells_push, hrest', List.append_assoc]

/-- Only `.s` and a missing cell tell the two machines apart. -/
theorem perform (h : m.StandsOn below m') {b : Builtin} (hlisting : b ≠ .printStack)
    (hunderflow : (m.perform b).result ≠ .error .stackUnderflow) :
    (m.perform b).Alike (StandsOn below) (m'.perform b) := by
  cases b with
  | bye => exact ⟨h, rfl, rfl⟩
  | print => exact h.print hunderflow
  | printStack => exact absurd rfl hlisting
  | add => exact h.add hunderflow

theorem evalToken (h : m.StandsOn below m') {token : String} {o : Outlet}
    (hlisting : ¬ m.Performs token .printStack)
    (hunderflow : ((evalToken token).run m o).result ≠ .error .stackUnderflow) :
    ((evalToken token).run m o).Alike (StandsOn below) ((evalToken token).run m' o) := by
  apply alike_evalToken
  rw [evalWord, evalWord, h.maxDepth_eq]
  apply alike_evalWithin h h.meaning_eq h.withEntry
  · intro n
    apply h.withStack
    rw [Stack.cells_push, Stack.cells_push, h.cells_eq, List.append_assoc]
  · intro b n hn hchain hword
    apply h.perform
    · rintro rfl
      exact hlisting ⟨n, hn, hchain⟩
    · intro hresult
      rw [← hword] at hresult
      exact hunderflow (result_evalToken_of_error hresult o)

end StandsOn

end Machine

/-- Tokens of which none comes to `.s` and none runs out of cells end in the same way on a stack
with more cells below. They write the same, change the dictionary alike and leave the cells below as
they are. -/
theorem alike_evalTokens_standsOn {below : List Int} {m m' : Machine} (h : m.StandsOn below m')
    {tokens : List String} {o : Outlet}
    (hlisting : ∀ token here left, ComesTo evalToken tokens m o token here left →
      ¬ here.Performs token .printStack)
    (hunderflow : ((evalTokens tokens).run m o).result ≠ .error .stackUnderflow) :
    ((evalTokens tokens).run m o).Alike (Machine.StandsOn below)
      ((evalTokens tokens).run m' o) := by
  apply alike_untilBye h
  intro token here here' left hcomes hhere
  apply hhere.evalToken (hlisting token here left hcomes)
  -- A token that runs out of cells ends the line with it.
  intro htoken
  obtain ⟨taken, rest, bytes, rfl, htaken⟩ := hcomes
  have hstop : ((evalToken token).run here left).result ≠ .ok .proceed := by simp [htoken]
  rw [evalTokens, run_untilBye_of_stop htaken hstop] at hunderflow
  exact hunderflow htoken

theorem alike_evalTokens_standsOn_sum :
    let m : Machine := ⟨⟨[2, 40]⟩, .seeded, 1⟩
    let m' : Machine := ⟨⟨[2, 40, 8, 7]⟩, .seeded, 1⟩
    let tokens := ["test", "."]
    m.StandsOn [7, 8] m' ∧
      (∀ token here left, ComesTo evalToken tokens m .endless token here left →
        ¬ here.Performs token .printStack) ∧
      (evalTokens tokens).run m .endless =
        ⟨⟨.empty, .seeded, 1⟩, .endless, Text.Utf8.encode "42", .ok .proceed⟩ ∧
      ((evalTokens tokens).run m' .endless).written = Text.Utf8.encode "42" ∧
      ((evalTokens tokens).run m' .endless).machine.stack.cells = [7, 8] := by
  intro m m' tokens
  have hstands : m.StandsOn [7, 8] m' := ⟨rfl, rfl, rfl⟩
  have hrun : (evalTokens tokens).run m .endless =
      ⟨⟨.empty, .seeded, 1⟩, .endless, Text.Utf8.encode "42", .ok .proceed⟩ := rfl
  have hcourse : course evalToken m .endless tokens =
      [("test", m, .endless), (".", ⟨⟨[42]⟩, .seeded, 1⟩, .endless)] := rfl
  have hlisting : ∀ token here left, ComesTo evalToken tokens m .endless token here left →
      ¬ here.Performs token .printStack := by
    rintro token here left htoken ⟨n, hn, hchain⟩
    rw [← mem_course_iff, hcourse, List.mem_cons, List.mem_singleton] at htoken
    rcases htoken with heq | heq
    · cases heq
      revert n
      decide
    · cases heq
      revert n
      decide
  have hunderflow : ((evalTokens tokens).run m .endless).result ≠ .error .stackUnderflow := by
    simp [hrun]
  have halike := alike_evalTokens_standsOn hstands hlisting hunderflow
  rw [hrun] at halike
  exact ⟨hstands, hlisting, hrun, halike.written_eq, halike.machines.cells_eq⟩

end ColonForth
