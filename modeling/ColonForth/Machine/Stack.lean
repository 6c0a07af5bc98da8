import ColonForth.Error
import ColonForth.Word.Numeral

/-! The data stack of integers, and operations on it that may fail. -/
namespace ColonForth
open Numeral

/-- The cells of a stack with the top one first. -/
structure Stack where
  topDown : List Int
  deriving DecidableEq

namespace Stack

def empty : Stack :=
  ⟨[]⟩

def cells (s : Stack) : List Int :=
  s.topDown.reverse

def size (s : Stack) : Nat :=
  s.topDown.length

def push (s : Stack) (n : Int) : Stack :=
  ⟨n :: s.topDown⟩

/-- An operation that fails leaves a stack as well. -/
abbrev Operation (α : Type) :=
  ExceptT Error (StateM Stack) α

def run {α : Type} (op : Operation α) (s : Stack) : Except Error α × Stack :=
  StateT.run (ExceptT.run op) s

def pop : Operation Int := do
  match (← get).topDown with
  | [] => throw .stackUnderflow
  | n :: rest =>
    set (⟨rest⟩ : Stack)
    pure n

def add : Operation Unit := do
  if (← get).size < 2 then throw .stackUnderflow
  let right ← pop
  let left ← pop
  modify (·.push (left + right))

def run? {α : Type} (op : Operation α) (s : Stack) : Option (α × Stack) :=
  match run op s with
  | (.ok a, rest) => some (a, rest)
  | (.error _, _) => none

def pop? (s : Stack) : Option (Int × Stack) :=
  run? pop s

def add? (s : Stack) : Option Stack :=
  (run? add s).map Prod.snd

/-- The size in angle brackets and then every cell, each of them followed by a space. -/
def listing (s : Stack) : List String :=
  ("<" ++ s.size.repr ++ "> ") :: s.cells.map fun n => decimal n ++ " "

@[simp] theorem cells_empty : empty.cells = [] := rfl

@[simp] theorem cells_push (s : Stack) (n : Int) : (s.push n).cells = s.cells ++ [n] := by
  simp [cells, push]

theorem length_cells (s : Stack) : s.cells.length = s.size := by
  simp [cells, size]

@[simp] theorem size_push (s : Stack) (n : Int) : (s.push n).size = s.size + 1 := rfl

@[simp] theorem empty_ne_push (s : Stack) (n : Int) : empty ≠ s.push n := by
  simp [empty, push]

@[simp] theorem push_inj {s t : Stack} {m n : Int} : s.push m = t.push n ↔ m = n ∧ s = t := by
  obtain ⟨_⟩ := s
  obtain ⟨_⟩ := t
  simp [push]

@[simp] theorem run_pop_empty : run pop empty = (.error .stackUnderflow, empty) := rfl

@[simp] theorem run_pop_push (s : Stack) (n : Int) : run pop (s.push n) = (.ok n, s) := rfl

@[simp] theorem run_add_push (s : Stack) (left right : Int) :
    run add ((s.push left).push right) = (.ok (), s.push (left + right)) := rfl

/-- The guard fails before anything is popped. -/
theorem run_add_of_lt {s : Stack} (h : s.size < 2) : run add s = (.error .stackUnderflow, s) := by
  match s with
  | ⟨[]⟩ => rfl
  | ⟨[_]⟩ => rfl
  | ⟨_ :: _ :: rest⟩ =>
    have : rest.length + 2 < 2 := h
    omega

theorem eq_empty_or_push (s : Stack) : s = empty ∨ ∃ (rest : Stack) (n : Int), s = rest.push n := by
  match s with
  | ⟨[]⟩ => exact Or.inl rfl
  | ⟨n :: rest⟩ => exact Or.inr ⟨⟨rest⟩, n, rfl⟩

theorem size_lt_or_push_push (s : Stack) :
    s.size < 2 ∨ ∃ (rest : Stack) (left right : Int), s = (rest.push left).push right := by
  match s with
  | ⟨[]⟩ | ⟨[_]⟩ => exact Or.inl (by simp [size])
  | ⟨right :: left :: rest⟩ => exact Or.inr ⟨⟨rest⟩, left, right, rfl⟩

theorem pop?_eq_some_iff (s rest : Stack) (n : Int) :
    s.pop? = some (n, rest) ↔ s = rest.push n := by
  rcases s.eq_empty_or_push with rfl | ⟨before, m, rfl⟩ <;> simp [pop?, run?]

theorem pop?_eq_none_iff (s : Stack) : s.pop? = none ↔ s = empty := by
  rcases s.eq_empty_or_push with rfl | ⟨before, m, rfl⟩
  · simp [pop?, run?]
  · simp [pop?, run?, (empty_ne_push before m).symm]

theorem add?_eq_some_iff (s t : Stack) :
    s.add? = some t ↔ ∃ (rest : Stack) (left right : Int),
      s = (rest.push left).push right ∧ t = rest.push (left + right) := by
  constructor
  · intro hadd
    rcases s.size_lt_or_push_push with hsize | ⟨rest, left, right, rfl⟩
    · simp [add?, run?, run_add_of_lt hsize] at hadd
    · exact ⟨rest, left, right, rfl, by simpa [add?, run?] using hadd.symm⟩
  · rintro ⟨rest, left, right, rfl, rfl⟩
    simp [add?, run?]

theorem add?_eq_none_iff (s : Stack) : s.add? = none ↔ s.cells.length < 2 := by
  rw [length_cells]
  rcases s.size_lt_or_push_push with hsize | ⟨rest, left, right, rfl⟩
  · simp [add?, run?, run_add_of_lt hsize, hsize]
  · simp [add?, run?]

/-- A pop that fails leaves the stack as it was. -/
theorem run_pop (s : Stack) :
    run pop s =
      match s.pop? with
      | some (n, rest) => (.ok n, rest)
      | none => (.error .stackUnderflow, s) := by
  rcases s.eq_empty_or_push with rfl | ⟨rest, n, rfl⟩ <;> rfl

/-- A sum that fails leaves the stack as it was. -/
theorem run_add (s : Stack) :
    run add s =
      match s.add? with
      | some rest => (.ok (), rest)
      | none => (.error .stackUnderflow, s) := by
  rcases s.size_lt_or_push_push with hsize | ⟨rest, left, right, rfl⟩
  · simp [add?, run?, run_add_of_lt hsize]
  · simp [add?, run?]

end Stack

end ColonForth
