/-! Sets of characters given by ranges of code points, as character properties are published. -/
namespace ColonForth.Text

/-- The characters from the code point `first` to the code point `last`, both included. -/
structure CharRange where
  first : Nat
  last : Nat
  deriving DecidableEq

namespace CharRange

def contains (range : CharRange) (c : Char) : Bool :=
  decide (range.first ≤ c.toNat) && decide (c.toNat ≤ range.last)

def anyContains (ranges : List CharRange) (c : Char) : Bool :=
  ranges.any (·.contains c)

end CharRange

end ColonForth.Text
