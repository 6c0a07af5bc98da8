import ColonForth.Machine.Dictionary
import ColonForth.Machine.Stack
import ColonForth.Word.Builtin
import ColonForth.Word.Clause
import ColonForth.Word.Numeral

/-! The machine and what a word means to it. -/
namespace ColonForth

/-- `maxDepth` bounds how many dictionary entries one word may lead through. -/
structure Machine where
  stack : Stack
  dictionary : Dictionary
  maxDepth : Nat

inductive Meaning where
  | builtin (b : Builtin)
  | entry (body : String)
  | definition
  | literal (n : Int)
  | unknown
  deriving DecidableEq

namespace Machine

def defaultMaxDepth : Nat :=
  64

def fresh (maxDepth : Nat) : Machine :=
  ⟨.empty, .seeded, maxDepth⟩

/-- Names of builtin words come first and entries of the dictionary second, so an entry can hide
a numeral but never a builtin word. -/
def meaning (m : Machine) (word : String) : Meaning :=
  match Builtin.ofName? word with
  | some b => .builtin b
  | none =>
    match m.dictionary.lookup? word with
    | some body => .entry body
    | none =>
      if word.toList.head? = some ':' then .definition
      else
        match Numeral.read? word with
        | some n => .literal n
        | none => .unknown

end Machine

end ColonForth
