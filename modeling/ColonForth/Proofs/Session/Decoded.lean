import ColonForth.Proofs.Session.Reading
import ColonForth.Proofs.Text.Decoding

/-! A session sees no more of its input than the text that the bytes are decoded to. -/
namespace ColonForth
open Text

theorem Action.untilBye_map {α β : Type} (act : β → Action Flow) (f : α → β) (items : List α) :
    untilBye act (items.map f) = untilBye (fun item => act (f item)) items := by
  induction items with
  | nil => rfl
  | cons item items ih => rw [List.map_cons, untilBye, untilBye, ih]

theorem Input.lines_reencode (bytes : List UInt8) (ending : Ending) :
    Input.lines ⟨Utf8.reencode bytes, ending⟩ =
      (Input.lines ⟨bytes, ending⟩).map Utf8.reencode := by
  -- Some text is read from any bytes but none, so a line that lacks its newline stays a line.
  have hempty : (Utf8.reencode (cutLines bytes).2).isEmpty = (cutLines bytes).2.isEmpty := by
    rw [Bool.eq_iff_iff, List.isEmpty_iff, List.isEmpty_iff, Utf8.reencode_eq_nil_iff]
  cases ending with
  | broken reason => simp only [Input.lines, cutLines_reencode]
  | endOfInput =>
    simp only [Input.lines, cutLines_reencode, hempty]
    split <;> simp

namespace Session

theorem takeLine_reencode (echo : Bool) (raw : List UInt8) :
    takeLine echo (Utf8.reencode raw) = takeLine echo raw := by
  rw [takeLine, Utf8.reencode, Utf8.decodeLossy_encode, takeLine]

/-- A session on any bytes is a session on the encoding of their text: it writes the same, ends in
the same way and leaves the same machine, whatever the outlet takes and even if reading fails. For
the lines of the bytes are decoded to the lines of the text. -/
theorem run_reencode (echo : Bool) (bytes : List UInt8) (ending : Ending) :
    let text := Utf8.decodeLossy bytes
    (∀ m o, (run echo ⟨bytes, ending⟩).run m o =
        (run echo ⟨Utf8.encode text, ending⟩).run m o) ∧
      (Input.lines ⟨Utf8.encode text, ending⟩).map Utf8.decodeLossy =
        (Input.lines ⟨bytes, ending⟩).map Utf8.decodeLossy ∧
      text.toList.splitOn '\n' =
        (bytes.splitOn newlineByte).map fun line => (Utf8.decodeLossy line).toList := by
  intro text
  have hlines : Input.lines ⟨Utf8.encode text, ending⟩ =
      (Input.lines ⟨bytes, ending⟩).map Utf8.reencode := Input.lines_reencode bytes ending
  refine ⟨fun m o => ?_, ?_, splitOn_decodeLossy bytes⟩
  · simp only [run_eq, hlines, Action.untilBye_map, takeLine_reencode]
  · simp only [hlines, List.map_map, Function.comp_def, Utf8.reencode, Utf8.decodeLossy_encode]

end Session

end ColonForth
