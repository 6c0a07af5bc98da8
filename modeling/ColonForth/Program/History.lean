import ColonForth.Text.Utf8

/-! The history of typed lines, kept in a file between runs. -/
namespace ColonForth

inductive HistoryFile where
  | absent
  | content (bytes : List UInt8)
  /-- No file can be read or made where the history belongs. -/
  | unusable
  deriving DecidableEq

namespace HistoryFile

def sizeLimit : Nat :=
  0xFFFFFFFFFFFFFFFF

/-- The lines of a text. A carriage return before a newline belongs to the line end. -/
def lines (text : String) : List (List Char) :=
  let pieces := text.toList.splitOn '\n'
  let complete := pieces.dropLast.map fun piece =>
    if piece.getLast? = some '\r' then piece.dropLast else piece
  match pieces.getLast? with
  | none | some [] => complete
  | some tail => complete ++ [tail]

def ofLines (ls : List (List Char)) : List UInt8 :=
  Text.Utf8.encode (String.ofList (ls.flatMap (· ++ ['\n'])))

/-- Opens the history. A missing file is made; a file with more than `size` lines keeps the last
ones and any other file is left as it is. There is no history when the file cannot be used, holds
bytes that are not text, or when `size` leaves no room to count one line more. -/
def opened? (size : Nat) (file : HistoryFile) : Option HistoryFile :=
  if sizeLimit ≤ size then none
  else
    match file with
    | .unusable => none
    | .absent => some (.content [])
    | .content bytes =>
      match Text.Utf8.decode? bytes with
      | none => none
      | some text =>
        let ls := lines text
        if size < ls.length then some (.content (ofLines (ls.drop (ls.length - size))))
        else some file

end HistoryFile

end ColonForth
