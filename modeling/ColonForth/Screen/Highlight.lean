import ColonForth.Text.Words
import ColonForth.Word.Builtin
import ColonForth.Word.Clause
import ColonForth.Word.Numeral

/-! The colours of a line that is being typed: each of its runs has one. -/
namespace ColonForth

inductive Colour where
  | lightBlue
  | darkGray
  | yellow
  | white
  deriving DecidableEq

namespace Colour

/-- Builtin words, delimiters and numerals stand out. The dictionary plays no part, so a word that
hides a numeral keeps the colour of numerals. -/
def ofWord (word : String) : Colour :=
  if (Builtin.ofName? word).isSome then .lightBlue
  else if isDelimiter word then .darkGray
  else if (Numeral.read? word).isSome then .yellow
  else .white

def ofRun (run : String) : Colour :=
  if run.toList.all Text.isBlank then .white else ofWord run

end Colour

def highlight (line : String) : List (Colour × String) :=
  (Text.runs line).map fun run => (Colour.ofRun run, run)

end ColonForth
