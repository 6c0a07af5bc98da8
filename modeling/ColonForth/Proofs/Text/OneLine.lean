import ColonForth.Proofs.Word.Numeral
import ColonForth.Text.Lines
import ColonForth.Text.Utf8

/-! Texts of one line, and bytes that are cut into lines. -/
namespace ColonForth.Text

/-- The only blank in the text is the space. -/
def IsOneLine (text : String) : Prop :=
  ∀ c ∈ text.toList, isBlank c = true → c = ' '

theorem isOneLine_iff_all (text : String) :
    IsOneLine text ↔ text.toList.all (fun c => !isBlank c || c == ' ') = true := by
  simp only [IsOneLine, List.all_eq_true, Bool.or_eq_true, Bool.not_eq_true', beq_iff_eq]
  constructor
  · intro h c hc
    cases hblank : isBlank c with
    | false => exact Or.inl rfl
    | true => exact Or.inr (h c hc hblank)
  · intro h c hc hblank
    exact (h c hc).resolve_left (by simp [hblank])

instance (text : String) : Decidable (IsOneLine text) :=
  decidable_of_iff _ (isOneLine_iff_all text).symm

theorem isOneLine_of_no_blank {text : String} (h : ∀ c ∈ text.toList, isBlank c = false) :
    IsOneLine text := by
  intro c hc hblank
  rw [h c hc] at hblank
  cases hblank

theorem IsWord.isOneLine {w : String} (h : IsWord w) : IsOneLine w :=
  isOneLine_of_no_blank h.2

theorem IsOneLine.append {s t : String} (hs : IsOneLine s) (ht : IsOneLine t) :
    IsOneLine (s ++ t) := by
  intro c hc
  rw [String.toList_append, List.mem_append] at hc
  exact hc.elim (hs c) (ht c)

theorem isOneLine_empty : IsOneLine "" := by decide

theorem isOneLine_joinWords {ws : List String} (h : ∀ w ∈ ws, IsOneLine w) :
    IsOneLine (joinWords ws) := by
  induction ws with
  | nil => exact isOneLine_empty
  | cons w ws ih =>
    have hrest := ih fun v hv => h v (List.mem_cons_of_mem w hv)
    cases ws with
    | nil => simpa using h w List.mem_cons_self
    | cons v vs =>
      have hspace : IsOneLine (String.singleton ' ') := by decide
      rw [joinWords_cons w (List.cons_ne_nil v vs)]
      exact ((h w List.mem_cons_self).append hspace).append hrest

theorem isOneLine_join {texts : List String} (h : ∀ text ∈ texts, IsOneLine text) :
    IsOneLine (String.join texts) := by
  induction texts with
  | nil => exact isOneLine_empty
  | cons text texts ih =>
    rw [String.join_cons]
    exact (h text List.mem_cons_self).append (ih fun t ht => h t (List.mem_cons_of_mem text ht))

theorem isOneLine_decimal (n : Int) : IsOneLine (Numeral.decimal n) :=
  (Numeral.isWord_of_read? (Numeral.read?_decimal n)).isOneLine

theorem isOneLine_repr (n : Nat) : IsOneLine n.repr :=
  isOneLine_decimal (Int.ofNat n)

theorem eq_newline_of_mem_encodeChar {c : Char} (h : newlineByte ∈ String.utf8EncodeChar c) :
    c = '\n' := by
  have hbyte : ∀ n, newlineByte = UInt8.ofNat n → n < 256 → n = 0x0A := by
    intro n hn hlt
    have htoNat := congrArg UInt8.toNat hn
    rw [UInt8.toNat_ofNat', Nat.mod_eq_of_lt hlt] at htoNat
    exact htoNat.symm
  -- All bytes of a sequence of two or more are beyond ASCII.
  have hlong : ∀ n, 0x80 ≤ n → n < 256 → newlineByte ≠ UInt8.ofNat n := by
    intro n hn hlt heq
    have := hbyte n heq hlt
    omega
  unfold String.utf8EncodeChar at h
  simp only at h
  split at h
  · have hc := hbyte _ (List.mem_singleton.mp h) (by omega)
    exact Char.toNat_inj.mp hc
  exfalso
  split at h
  · simp only [List.mem_cons, List.not_mem_nil, or_false] at h
    rcases h with h | h <;> exact hlong _ (by omega) (by omega) h
  split at h
  · simp only [List.mem_cons, List.not_mem_nil, or_false] at h
    rcases h with h | h | h <;> exact hlong _ (by omega) (by omega) h
  · simp only [List.mem_cons, List.not_mem_nil, or_false] at h
    rcases h with h | h | h | h <;> exact hlong _ (by omega) (by omega) h

theorem newlineByte_notMem_encode {text : String} (h : '\n' ∉ text.toList) :
    newlineByte ∉ Utf8.encode text := by
  intro hmem
  obtain ⟨c, hc, hbyte⟩ := List.mem_flatMap.mp hmem
  obtain rfl := eq_newline_of_mem_encodeChar hbyte
  exact h hc

theorem IsOneLine.newlineByte_notMem_encode {text : String} (h : IsOneLine text) :
    newlineByte ∉ Utf8.encode text := by
  apply Text.newlineByte_notMem_encode
  intro hmem
  exact absurd (h '\n' hmem isBlank_newline) (by decide)

/-- The lines of the bytes: each of them ends at its first newline, and none but the last one may
end without it. -/
structure AreLinesOf (lines : List (List UInt8)) (bytes : List UInt8) : Prop where
  flatten_eq : lines.flatten = bytes
  ne_nil : ∀ line ∈ lines, line ≠ []
  newlineByte_notMem_dropLast : ∀ line ∈ lines, newlineByte ∉ line.dropLast
  getLast?_eq : ∀ line ∈ lines.dropLast, line.getLast? = some newlineByte

theorem areLinesOf_append {lines : List (List UInt8)} {tail : List UInt8}
    (hlines : ∀ line ∈ lines, ∃ body, line = body ++ [newlineByte] ∧ newlineByte ∉ body)
    (htail : newlineByte ∉ tail) :
    AreLinesOf (if tail.isEmpty then lines else lines ++ [tail]) (lines.flatten ++ tail) := by
  have hended : ∀ line ∈ lines,
      line ≠ [] ∧ newlineByte ∉ line.dropLast ∧ line.getLast? = some newlineByte := by
    intro line hline
    obtain ⟨body, rfl, hbody⟩ := hlines line hline
    rw [List.dropLast_concat]
    exact ⟨by simp, hbody, List.getLast?_concat⟩
  split
  · next hempty =>
    rw [List.isEmpty_iff.mp hempty, List.append_nil]
    exact ⟨rfl, fun line h => (hended line h).1, fun line h => (hended line h).2.1,
      fun line h => (hended line (List.dropLast_subset _ h)).2.2⟩
  · next hempty =>
    have hmem : ∀ line ∈ lines ++ [tail], line ∈ lines ∨ line = tail := by
      intro line hline
      simpa using hline
    refine ⟨by simp, ?_, ?_, ?_⟩
    · intro line hline
      rcases hmem line hline with hline | rfl
      · exact (hended line hline).1
      · rwa [List.isEmpty_iff] at hempty
    · intro line hline
      rcases hmem line hline with hline | rfl
      · exact (hended line hline).2.1
      · exact fun h => htail (List.dropLast_subset _ h)
    · intro line hline
      rw [List.dropLast_concat] at hline
      exact (hended line hline).2.2

theorem cutLines_encode_append {report : String} (h : IsOneLine report) (text : String) :
    cutLines (Utf8.encode (report ++ "\n" ++ text)) =
      (Utf8.encode (report ++ "\n") :: (cutLines (Utf8.encode text)).1,
        (cutLines (Utf8.encode text)).2) := by
  have hnewline : Utf8.encode "\n" = [newlineByte] := rfl
  rw [Utf8.encode_append, Utf8.encode_append, hnewline, List.append_assoc, List.singleton_append]
  exact cutLines_line_append h.newlineByte_notMem_encode _

end ColonForth.Text
