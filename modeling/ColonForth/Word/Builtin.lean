/-! The words that the machine performs itself. -/
namespace ColonForth

inductive Builtin where
  | bye
  | print
  | printStack
  | add
  deriving DecidableEq

namespace Builtin

def all : List Builtin :=
  [.bye, .print, .printStack, .add]

theorem mem_all (b : Builtin) : b ∈ all := by
  cases b <;> decide

def name : Builtin → String
  | .bye => "bye"
  | .print => "."
  | .printStack => ".s"
  | .add => "+"

def ofName? (word : String) : Option Builtin :=
  all.find? (·.name == word)

theorem ofName?_name (b : Builtin) : ofName? b.name = some b := by
  cases b <;> decide

theorem ofName?_eq_some_iff (word : String) (b : Builtin) :
    ofName? word = some b ↔ word = b.name := by
  constructor
  · intro h
    have := List.find?_some h
    simpa using (beq_iff_eq.mp this).symm
  · rintro rfl
    exact ofName?_name b

end Builtin

end ColonForth
