/-! Input arrives in lines, each ended by a newline byte. -/
namespace ColonForth.Text

def newlineByte : UInt8 :=
  0x0A

/-- The complete lines of the input, each with its newline, and the bytes after the last one. -/
def cutLines : List UInt8 → List (List UInt8) × List UInt8
  | [] => ([], [])
  | byte :: bytes =>
    let (lines, tail) := cutLines bytes
    if byte = newlineByte then ([byte] :: lines, tail)
    else
      match lines with
      | [] => ([], byte :: tail)
      | line :: lines => ((byte :: line) :: lines, tail)

@[simp] theorem cutLines_nil : cutLines [] = ([], []) := rfl

@[simp] theorem cutLines_newline (bytes : List UInt8) :
    cutLines (newlineByte :: bytes) =
      ([newlineByte] :: (cutLines bytes).1, (cutLines bytes).2) := by
  simp [cutLines]

theorem cutLines_cons_of_nil {byte : UInt8} {bytes : List UInt8} (hb : byte ≠ newlineByte)
    (h : (cutLines bytes).1 = []) :
    cutLines (byte :: bytes) = ([], byte :: (cutLines bytes).2) := by
  simp [cutLines, hb, h]

theorem cutLines_cons_of_cons {byte : UInt8} {bytes line : List UInt8} {lines : List (List UInt8)}
    (hb : byte ≠ newlineByte) (h : (cutLines bytes).1 = line :: lines) :
    cutLines (byte :: bytes) = ((byte :: line) :: lines, (cutLines bytes).2) := by
  simp [cutLines, hb, h]

theorem cutLines_of_newline_notMem {bytes : List UInt8} (h : newlineByte ∉ bytes) :
    cutLines bytes = ([], bytes) := by
  induction bytes with
  | nil => rfl
  | cons byte bytes ih =>
    rw [List.mem_cons, not_or] at h
    have hrest := ih h.2
    rw [cutLines_cons_of_nil (Ne.symm h.1) (congrArg Prod.fst hrest), hrest]

theorem cutLines_line_append {body : List UInt8} (h : newlineByte ∉ body) (bytes : List UInt8) :
    cutLines (body ++ newlineByte :: bytes) =
      ((body ++ [newlineByte]) :: (cutLines bytes).1, (cutLines bytes).2) := by
  induction body with
  | nil => exact cutLines_newline bytes
  | cons byte body ih =>
    rw [List.mem_cons, not_or] at h
    have hrest := ih h.2
    rw [List.cons_append, cutLines_cons_of_cons (Ne.symm h.1) (congrArg Prod.fst hrest), hrest]
    rfl

/-- Bytes are taken line by line, and what is left then has no newline. -/
theorem lines_induction {P : List UInt8 → Prop} (hlast : ∀ tail, newlineByte ∉ tail → P tail)
    (hline : ∀ body rest, newlineByte ∉ body → P rest → P (body ++ newlineByte :: rest))
    (bytes : List UInt8) : P bytes := by
  induction hlength : bytes.length using Nat.strongRecOn generalizing bytes with
  | ind n ih =>
    by_cases hmem : newlineByte ∈ bytes
    · obtain ⟨body, rest, rfl, hbody⟩ := List.eq_append_cons_of_mem hmem
      apply hline body rest hbody
      refine ih rest.length ?_ rest rfl
      rw [← hlength, List.length_append, List.length_cons]
      omega
    · exact hlast bytes hmem

theorem flatten_cutLines (bytes : List UInt8) :
    (cutLines bytes).1.flatten ++ (cutLines bytes).2 = bytes := by
  induction bytes with
  | nil => rfl
  | cons byte bytes ih =>
    by_cases hb : byte = newlineByte
    · subst hb
      simpa using ih
    · rcases h : (cutLines bytes).1 with _ | ⟨line, lines⟩
      · simpa [cutLines_cons_of_nil hb h, h] using ih
      · simpa [cutLines_cons_of_cons hb h, h] using ih

/-- The cut after a complete line does not depend on what stands before it. -/
theorem cutLines_append {xs : List UInt8} (h : (cutLines xs).2 = []) (ys : List UInt8) :
    cutLines (xs ++ ys) = ((cutLines xs).1 ++ (cutLines ys).1, (cutLines ys).2) := by
  induction xs with
  | nil => rfl
  | cons byte xs ih =>
    by_cases hb : byte = newlineByte
    · subst hb
      rw [cutLines_newline] at h
      simp [ih h]
    · rcases hlines : (cutLines xs).1 with _ | ⟨line, lines⟩
      · simp [cutLines_cons_of_nil hb hlines] at h
      · rw [cutLines_cons_of_cons hb hlines] at h
        have hcut := ih h
        have hfirst : (cutLines (xs ++ ys)).1 = line :: (lines ++ (cutLines ys).1) := by
          simp [hcut, hlines]
        rw [List.cons_append, cutLines_cons_of_cons hb hlines, cutLines_cons_of_cons hb hfirst,
          hcut]
        rfl

theorem newline_not_mem_tail (bytes : List UInt8) : newlineByte ∉ (cutLines bytes).2 := by
  induction bytes with
  | nil => simp
  | cons byte bytes ih =>
    by_cases hb : byte = newlineByte
    · subst hb
      simpa using ih
    · rcases h : (cutLines bytes).1 with _ | ⟨line, lines⟩
      · simpa [cutLines_cons_of_nil hb h, Ne.symm hb] using ih
      · simpa [cutLines_cons_of_cons hb h] using ih

theorem exists_of_mem_cutLines {bytes line : List UInt8} (h : line ∈ (cutLines bytes).1) :
    ∃ body, line = body ++ [newlineByte] ∧ newlineByte ∉ body := by
  induction bytes generalizing line with
  | nil => simp at h
  | cons byte bytes ih =>
    by_cases hb : byte = newlineByte
    · subst hb
      rw [cutLines_newline] at h
      rcases List.mem_cons.mp h with rfl | h
      · exact ⟨[], by simp⟩
      · exact ih h
    · rcases hlines : (cutLines bytes).1 with _ | ⟨first, lines⟩
      · simp [cutLines_cons_of_nil hb hlines] at h
      · rw [cutLines_cons_of_cons hb hlines] at h
        rcases List.mem_cons.mp h with rfl | h
        · obtain ⟨body, rfl, hbody⟩ := ih (hlines ▸ List.mem_cons_self)
          exact ⟨byte :: body, rfl, by simpa [Ne.symm hb] using hbody⟩
        · exact ih (hlines ▸ List.mem_cons_of_mem _ h)

end ColonForth.Text
