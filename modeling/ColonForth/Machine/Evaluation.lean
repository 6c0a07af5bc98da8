import ColonForth.Machine.Basic

/-! The evaluation of one word, through at most `maxDepth` entries of the dictionary. -/
namespace ColonForth

/-- Whether the rest of the input is still to be interpreted. -/
inductive Flow where
  | proceed
  | bye
  deriving DecidableEq

/-- What evaluating one word does: the machine after it, the texts it prints in turn and how it
ends. -/
structure Effect where
  machine : Machine
  printed : List String
  result : Except Error Flow

def Effect.text (effect : Effect) : String :=
  String.join effect.printed

namespace Machine

/-- Nothing changes and nothing is printed. -/
def failing (m : Machine) (e : Error) : Effect :=
  ⟨m, [], .error e⟩

/-- Leaves the machine with the stack that a stack operation has left, failed or not. -/
def perform (m : Machine) : Builtin → Effect
  | .bye => ⟨m, [], .ok .bye⟩
  | .print =>
    match Stack.run Stack.pop m.stack with
    | (.ok n, rest) => ⟨{ m with stack := rest }, Numeral.decimalParts n, .ok .proceed⟩
    | (.error e, rest) => failing { m with stack := rest } e
  | .printStack => ⟨m, m.stack.listing, .ok .proceed⟩
  | .add =>
    match Stack.run Stack.add m.stack with
    | (.ok (), rest) => ⟨{ m with stack := rest }, [], .ok .proceed⟩
    | (.error e, rest) => failing { m with stack := rest } e

theorem perform_print (m : Machine) :
    m.perform .print =
      match m.stack.pop? with
      | some (n, rest) => ⟨{ m with stack := rest }, Numeral.decimalParts n, .ok .proceed⟩
      | none => m.failing .stackUnderflow := by
  rw [perform, Stack.run_pop]
  cases m.stack.pop? <;> rfl

theorem perform_add (m : Machine) :
    m.perform .add =
      match m.stack.add? with
      | some rest => ⟨{ m with stack := rest }, [], .ok .proceed⟩
      | none => m.failing .stackUnderflow := by
  rw [perform, Stack.run_add]
  cases m.stack.add? <;> rfl

def define (m : Machine) (clause : String) : Effect :=
  match Definition.ofClause clause with
  | .ok d => ⟨{ m with dictionary := m.dictionary.define d.name d.body }, [], .ok .proceed⟩
  | .error e => m.failing e

/-- Evaluates a word when `budget` more entries may be followed. -/
def evalWithin (m : Machine) (budget : Nat) (word : String) : Effect :=
  match m.meaning word with
  | .builtin b => m.perform b
  | .entry body =>
    match budget with
    | 0 => m.failing (.definitionCycle word)
    | budget + 1 => m.evalWithin budget body
  | .definition => m.define word
  | .literal n => ⟨{ m with stack := m.stack.push n }, [], .ok .proceed⟩
  | .unknown => m.failing (.unknownToken word)

def evalWord (m : Machine) (word : String) : Effect :=
  m.evalWithin m.maxDepth word

end Machine

end ColonForth
