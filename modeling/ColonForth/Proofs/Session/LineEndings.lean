import ColonForth.Proofs.Session.Decoded

/-! Without echo a session sees nothing of a line but its words, and of line ends nothing at all. -/
namespace ColonForth
open Text

namespace Text

def returnByte : UInt8 :=
  0x0D

/-- The second list is the first one with carriage returns in front of some of its newlines. -/
inductive Returned : List UInt8 → List UInt8 → Prop
  | nil : Returned [] []
  | keep (byte : UInt8) {xs ys : List UInt8} (h : Returned xs ys) :
      Returned (byte :: xs) (byte :: ys)
  | insert {xs ys : List UInt8} (h : Returned xs ys) :
      Returned (newlineByte :: xs) (returnByte :: newlineByte :: ys)

theorem Returned.eq_of_newline_notMem {xs ys : List UInt8} (h : Returned xs ys)
    (hxs : newlineByte ∉ xs) : ys = xs := by
  induction h with
  | nil => rfl
  | keep byte _ ih => rw [ih (List.not_mem_of_not_mem_cons hxs)]
  | insert _ _ => exact absurd List.mem_cons_self hxs

theorem Returned.exists_line {body rest ys : List UInt8} (hbody : newlineByte ∉ body)
    (h : Returned (body ++ newlineByte :: rest) ys) :
    ∃ body' ys', ys = body' ++ newlineByte :: ys' ∧ (body' = body ∨ body' = body ++ [returnByte]) ∧
      Returned rest ys' := by
  induction body generalizing ys with
  | nil =>
    cases h with
    | keep _ h => exact ⟨[], _, rfl, Or.inl rfl, h⟩
    | insert h => exact ⟨[returnByte], _, rfl, Or.inr rfl, h⟩
  | cons byte body ih =>
    rw [List.mem_cons, not_or] at hbody
    cases h with
    | keep _ h =>
      obtain ⟨body', ys', rfl, hbody', hrest⟩ := ih hbody.2 h
      refine ⟨byte :: body', ys', rfl, ?_, hrest⟩
      simpa using hbody'
    | insert h => exact absurd rfl hbody.1

def rawWords (raw : List UInt8) : List String :=
  words (Utf8.decodeLossy raw)

/-- A blank behind a line is not seen, even if it cuts a sequence of bytes short. -/
theorem rawWords_concat_blank (xs : List UInt8) {byte : UInt8} (hascii : byte.toNat < 0x80)
    (hblank : isBlank (Char.ofNat byte.toNat) = true) : rawWords (xs ++ [byte]) = rawWords xs := by
  rw [rawWords, Utf8.decodeLossy_append_ascii xs hascii, words_append_blank hblank]
  exact List.append_nil _

theorem rawWords_newline (xs : List UInt8) : rawWords (xs ++ [newlineByte]) = rawWords xs :=
  rawWords_concat_blank xs (by decide) (by decide)

theorem rawWords_return (xs : List UInt8) : rawWords (xs ++ [returnByte]) = rawWords xs :=
  rawWords_concat_blank xs (by decide) (by decide)

end Text

theorem Input.words_lines_of_returned {xs ys : List UInt8} (h : Returned xs ys) (ending : Ending) :
    (Input.lines ⟨ys, ending⟩).map rawWords = (Input.lines ⟨xs, ending⟩).map rawWords := by
  induction xs using lines_induction generalizing ys with
  | hlast tail htail => rw [h.eq_of_newline_notMem htail]
  | hline body rest hbody ih =>
    obtain ⟨body', ys', rfl, hbody', hrest⟩ := h.exists_line hbody
    have hsame : newlineByte ∉ body' ∧ rawWords body' = rawWords body := by
      rcases hbody' with rfl | rfl
      · exact ⟨hbody, rfl⟩
      · have hdiffer : newlineByte ≠ returnByte := by decide
        exact ⟨by simp [hbody, hdiffer], rawWords_return body⟩
    obtain ⟨hnewline, hwords⟩ := hsame
    rw [Input.lines_line_append hnewline, Input.lines_line_append hbody, List.map_cons,
      List.map_cons, rawWords_newline, rawWords_newline, hwords, ih hrest]

/-- A newline at the end makes a line of what is a line without it. -/
theorem Input.words_lines_append_newline {bytes : List UInt8} (hne : bytes ≠ [])
    (hlast : bytes.getLast? ≠ some newlineByte) :
    (Input.lines ⟨bytes ++ [newlineByte], .endOfInput⟩).map rawWords =
      (Input.lines ⟨bytes, .endOfInput⟩).map rawWords := by
  induction bytes using lines_induction with
  | hlast tail htail =>
    have htailLines : Input.lines ⟨tail, .endOfInput⟩ = [tail] := by
      simp [Input.lines, cutLines_of_newline_notMem htail, hne]
    have hempty : Input.lines ⟨[], .endOfInput⟩ = [] := rfl
    rw [Input.lines_line_append htail, htailLines, hempty, List.map_singleton, List.map_singleton,
      rawWords_newline]
  | hline body rest hbody ih =>
    have hrest : rest ≠ [] := by
      rintro rfl
      simp at hlast
    have hrestLast : rest.getLast? ≠ some newlineByte := by
      obtain ⟨byte, rest, rfl⟩ := List.exists_cons_of_ne_nil hrest
      simpa using hlast
    rw [List.append_assoc, List.cons_append, Input.lines_line_append hbody,
      Input.lines_line_append hbody, List.map_cons, List.map_cons, ih hrest hrestLast]

namespace Session

theorem takeLine_of_rawWords (raw : List UInt8) :
    takeLine false raw = takeLine false (Utf8.encode (joinWords (rawWords raw))) := by
  have hwords : words (Utf8.decodeLossy raw) =
      words (Utf8.decodeLossy (Utf8.encode (joinWords (rawWords raw)))) := by
    rw [Utf8.decodeLossy_encode, rawWords, words_joinWords fun w hw => isWord_of_mem_words hw]
  simp only [takeLine, echoLine, Bool.false_eq_true, if_false, interpretLine_congr hwords]

/-- Nothing but the words of the lines matters to a session without echo. -/
theorem run_congr {input input' : Input} (hending : input.ending = input'.ending)
    (h : input.lines.map rawWords = input'.lines.map rawWords) :
    run false input = run false input' := by
  have hlines : ∀ lines : List (List UInt8), Action.untilBye (takeLine false) lines =
      Action.untilBye (fun ws => takeLine false (Utf8.encode (joinWords ws)))
        (lines.map rawWords) := by
    intro lines
    rw [Action.untilBye_map, ← funext takeLine_of_rawWords]
  rw [run_eq, run_eq, hlines, hlines, h, hending]

/-- A session without echo does the same, and ends in the same way, whether there are carriage
returns in front of newlines or not, and whether the last line is ended by a newline or by the end
of the input. The bytes need not be those of a text, and any outlet will do. -/
theorem run_lineEndings (bytes : List UInt8) (m : Machine) (o : Outlet) :
    (∀ returned, Returned bytes returned → ∀ ending,
      (run false ⟨returned, ending⟩).run m o = (run false ⟨bytes, ending⟩).run m o) ∧
      (bytes ≠ [] → bytes.getLast? ≠ some newlineByte →
        (run false ⟨bytes ++ [newlineByte], .endOfInput⟩).run m o =
          (run false ⟨bytes, .endOfInput⟩).run m o) := by
  constructor
  · intro returned h ending
    have hrun : run false ⟨returned, ending⟩ = run false ⟨bytes, ending⟩ :=
      run_congr rfl (Input.words_lines_of_returned h ending)
    rw [hrun]
  · intro hne hlast
    have hrun : run false ⟨bytes ++ [newlineByte], .endOfInput⟩ = run false ⟨bytes, .endOfInput⟩ :=
      run_congr rfl (Input.words_lines_append_newline hne hlast)
    rw [hrun]

end Session

end ColonForth
