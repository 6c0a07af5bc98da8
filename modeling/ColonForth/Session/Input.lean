import ColonForth.Text.Lines

/-! The input of a session, and reading it into a buffer. -/
namespace ColonForth

inductive Ending where
  | endOfInput
  /-- The read after the last byte fails. -/
  | broken (reason : String)
  deriving DecidableEq

structure Input where
  bytes : List UInt8
  ending : Ending
  deriving DecidableEq

namespace Input

/-- The lines that can be read, each with its newline if it has one. Bytes after the last newline
are a line of their own when the input ends there, and they are lost when it breaks off. -/
def lines (input : Input) : List (List UInt8) :=
  let (complete, tail) := Text.cutLines input.bytes
  match input.ending with
  | .endOfInput => if tail.isEmpty then complete else complete ++ [tail]
  | .broken _ => complete

theorem lines_line_append {body : List UInt8} (h : Text.newlineByte ∉ body) (rest : List UInt8)
    (ending : Ending) :
    lines ⟨body ++ Text.newlineByte :: rest, ending⟩ =
      (body ++ [Text.newlineByte]) :: lines ⟨rest, ending⟩ := by
  cases ending with
  | broken reason => simp only [lines, Text.cutLines_line_append h]
  | endOfInput =>
    simp only [lines, Text.cutLines_line_append h]
    split <;> rfl

end Input

structure Reader where
  buffer : List UInt8
  input : Input

namespace Reader

def clear (r : Reader) : Reader :=
  { r with buffer := [] }

def take (r : Reader) (count : Nat) : Reader :=
  ⟨r.buffer ++ r.input.bytes.take count, { r.input with bytes := r.input.bytes.drop count }⟩

/-- Reads up to the next newline, or else all that is left, and says how many bytes that was. A read
that fails has filled the buffer nevertheless. -/
def readLine (r : Reader) : Except String Nat × Reader :=
  let count := (r.input.bytes.takeWhile (· != Text.newlineByte)).length
  if count < r.input.bytes.length then (.ok (count + 1), r.take (count + 1))
  else
    match r.input.ending with
    | .endOfInput => (.ok count, r.take count)
    | .broken reason => (.error reason, r.take count)

theorem takeWhile_append {body : List UInt8} (h : Text.newlineByte ∉ body) (bytes : List UInt8) :
    (body ++ bytes).takeWhile (· != Text.newlineByte) =
      body ++ bytes.takeWhile (· != Text.newlineByte) := by
  apply List.takeWhile_append_of_pos
  intro byte hbyte
  simp only [bne_iff_ne]
  rintro rfl
  exact h hbyte

theorem readLine_line (buffer : List UInt8) {body : List UInt8} (h : Text.newlineByte ∉ body)
    (rest : List UInt8) (ending : Ending) :
    readLine ⟨buffer, ⟨body ++ Text.newlineByte :: rest, ending⟩⟩ =
      (.ok (body.length + 1), ⟨buffer ++ (body ++ [Text.newlineByte]), ⟨rest, ending⟩⟩) := by
  have hcount : (body ++ Text.newlineByte :: rest).takeWhile (· != Text.newlineByte) = body := by
    simp [takeWhile_append h]
  have hbody : body.take (body.length + 1) = body := List.take_of_length_le (Nat.le_succ _)
  simp [readLine, hcount, take, List.take_append, List.drop_append, hbody]

theorem readLine_tail (buffer : List UInt8) {bytes : List UInt8} (h : Text.newlineByte ∉ bytes)
    (ending : Ending) :
    readLine ⟨buffer, ⟨bytes, ending⟩⟩ =
      (match ending with
        | .endOfInput => .ok bytes.length
        | .broken reason => .error reason,
        ⟨buffer ++ bytes, ⟨[], ending⟩⟩) := by
  have hcount : bytes.takeWhile (· != Text.newlineByte) = bytes := by
    simpa using takeWhile_append h []
  cases ending <;> simp [readLine, hcount, take]

theorem readLine_eq_ok {r next : Reader} {count : Nat} (h : r.readLine = (.ok count, next)) :
    count ≤ r.input.bytes.length ∧ next = r.take count := by
  have hle := (List.takeWhile_prefix (l := r.input.bytes) (· != Text.newlineByte)).length_le
  rw [readLine] at h
  split at h
  · next hlt =>
    cases h
    exact ⟨hlt, rfl⟩
  · split at h
    · cases h
      exact ⟨hle, rfl⟩
    · cases h

/-- Every read that reads something leaves less to read. -/
theorem length_lt_of_readLine {r next : Reader} {count : Nat}
    (h : r.clear.readLine = (.ok count, next)) (hcount : count ≠ 0) :
    next.input.bytes.length < r.input.bytes.length := by
  obtain ⟨hle, rfl⟩ := readLine_eq_ok h
  simp only [clear] at hle
  simp only [take, clear, List.length_drop]
  omega

theorem length_buffer_of_readLine {r next : Reader} {count : Nat}
    (h : r.clear.readLine = (.ok count, next)) : next.buffer.length = count := by
  obtain ⟨hle, rfl⟩ := readLine_eq_ok h
  simpa [take, clear] using Nat.min_eq_left hle

end Reader

end ColonForth
