/-! The texts around an input line. -/
namespace ColonForth

/-- `depth` is the size of the stack. -/
structure Prompt where
  depth : Nat
  deriving DecidableEq

namespace Prompt

def left (_ : Prompt) : String :=
  "dictforth"

def right (p : Prompt) : String :=
  if p.depth = 0 then "" else "<" ++ p.depth.repr ++ ">"

def indicator : String :=
  "❯ "

/-- Stands before the further lines of an input that spans several. -/
def continuation : String :=
  "  ... "

def search (failing : Bool) (term : String) : String :=
  "(" ++ (if failing then "failing " else "") ++ "reverse-search: " ++ term ++ ") "

end Prompt

end ColonForth
