import ColonForth.Proofs.Text.OneLine

/-! Decoding and lines. A newline byte continues no sequence, so lines are decoded one by one. -/
namespace ColonForth.Text

namespace Utf8

/-- What a scan may have begun: only bytes beyond ASCII continue it, and the number that it spells
is larger than those of the line ends. -/
structure Unfinished.Begun (u : Unfinished) : Prop where
  low_ge : 0x80 ≤ u.low
  spelled_ge : 0x10 ≤ u.bits * 0x40 + (u.low - 0x80)

def IsScanState (state : Option Unfinished) : Prop :=
  ∀ u, state = some u → u.Begun

theorem isScanState_none : IsScanState none := by
  intro u hu
  cases hu

/-! ### The steps of a scan -/

/-- A byte of ASCII ends what was begun and stands for itself. -/
theorem step_of_ascii {state : Option Unfinished} (h : IsScanState state) {byte : Nat}
    (hbyte : byte < 0x80) :
    step state byte = (scan state [] ++ [some (Char.ofNat byte)], none) := by
  have hstart : start byte = ([some (Char.ofNat byte)], none) := by
    rw [start, if_pos hbyte]
  cases state with
  | none => exact hstart
  | some u =>
    have hlow := (h u rfl).low_ge
    have hrange : ¬ (u.low ≤ byte ∧ byte ≤ u.high) := by omega
    simp only [step, if_neg hrange, hstart]
    rfl

theorem start_beyond_ascii {byte : Nat} (hbyte : ¬ byte < 0x80) :
    start byte = ([none], none) ∨ ∃ u, u.Begun ∧ start byte = ([], some u) := by
  unfold start
  rw [if_neg hbyte]
  split
  · exact Or.inl rfl
  split
  · refine Or.inr ⟨_, ?_, rfl⟩
    constructor <;> dsimp only <;> omega
  split
  · refine Or.inr ⟨_, ?_, rfl⟩
    constructor <;> dsimp only <;> split <;> omega
  split
  · refine Or.inr ⟨_, ?_, rfl⟩
    constructor <;> dsimp only <;> split <;> omega
  · exact Or.inl rfl

/-- Any other byte completes a sequence, belongs to one that is not complete, or is malformed. In
the last two cases what was begun may be malformed, too. -/
theorem step_beyond_ascii {state : Option Unfinished} (h : IsScanState state) {byte : Nat}
    (hbyte : ¬ byte < 0x80) :
    (∃ n, 0x10 ≤ n ∧ step state byte = ([some (Char.ofNat n)], none)) ∨
      (∃ u, u.Begun ∧
        (step state byte = ([], some u) ∨ step state byte = (scan state [], some u))) ∨
      step state byte = (scan state [] ++ [none], none) := by
  cases state with
  | none =>
    rcases start_beyond_ascii hbyte with hnone | ⟨u, hu, hsome⟩
    · exact Or.inr (Or.inr hnone)
    · exact Or.inr (Or.inl ⟨u, hu, Or.inl hsome⟩)
  | some u =>
    obtain ⟨hlow, hspelled⟩ := h u rfl
    unfold step
    dsimp only
    split
    · next hrange =>
      split
      · exact Or.inl ⟨_, by omega, rfl⟩
      · refine Or.inr (Or.inl ⟨_, ?_, Or.inl rfl⟩)
        constructor <;> dsimp only <;> omega
    · rcases start_beyond_ascii hbyte with hnone | ⟨later, hlater, hsome⟩
      · rw [hnone]
        exact Or.inr (Or.inr rfl)
      · rw [hsome]
        exact Or.inr (Or.inl ⟨later, hlater, Or.inr rfl⟩)

theorem isScanState_step {state : Option Unfinished} (h : IsScanState state) (byte : Nat) :
    IsScanState (step state byte).2 := by
  intro u hu
  by_cases hbyte : byte < 0x80
  · rw [step_of_ascii h hbyte] at hu
    cases hu
  · rcases step_beyond_ascii h hbyte with ⟨n, -, hstep⟩ | ⟨later, hlater, hstep | hstep⟩ | hstep <;>
      rw [hstep] at hu <;> cases hu
    · exact hlater
    · exact hlater

theorem step_ne_nil_none {state : Option Unfinished} (h : IsScanState state) (byte : Nat) :
    step state byte ≠ ([], none) := by
  by_cases hbyte : byte < 0x80
  · simp [step_of_ascii h hbyte]
  · rcases step_beyond_ascii h hbyte with ⟨n, -, hstep⟩ | ⟨later, -, hstep | hstep⟩ | hstep <;>
      simp [hstep]

theorem eq_of_ofNat_eq_newline {n : Nat} (h : Char.ofNat n = '\n') : n = 0x0A := by
  by_cases hvalid : n.isValidChar
  · have htoNat : (Char.ofNat n).toNat = n := by
      rw [Char.ofNat, dif_pos hvalid]
      rfl
    rw [h] at htoNat
    exact htoNat.symm
  · rw [Char.ofNat, dif_neg hvalid] at h
    cases h

theorem newline_notMem_scan_nil (state : Option Unfinished) : some '\n' ∉ scan state [] := by
  cases state <;> simp [scan]

theorem eq_of_newline_mem_step {state : Option Unfinished} (h : IsScanState state) {byte : Nat}
    (hmem : some '\n' ∈ (step state byte).1) : byte = 0x0A := by
  have hbegun := newline_notMem_scan_nil state
  by_cases hbyte : byte < 0x80
  · rw [step_of_ascii h hbyte, List.mem_append, List.mem_singleton] at hmem
    exact eq_of_ofNat_eq_newline (Option.some.inj (hmem.resolve_left hbegun)).symm
  · exfalso
    rcases step_beyond_ascii h hbyte with ⟨n, hn, hstep⟩ | ⟨u, -, hstep | hstep⟩ | hstep <;>
      rw [hstep] at hmem
    · have hnewline := eq_of_ofNat_eq_newline (Option.some.inj (List.mem_singleton.mp hmem)).symm
      omega
    · cases hmem
    · exact hbegun hmem
    · simp [hbegun] at hmem

/-! ### Scans and lines -/

/-- What stands behind a byte of ASCII is scanned afresh. -/
theorem scan_append_ascii {state : Option Unfinished} (h : IsScanState state) {byte : UInt8}
    (hbyte : byte.toNat < 0x80) (xs ys : List UInt8) :
    scan state (xs ++ byte :: ys) =
      scan state xs ++ some (Char.ofNat byte.toNat) :: scan none ys := by
  induction xs generalizing state with
  | nil =>
    rw [List.nil_append, scan_cons, step_of_ascii h hbyte, List.append_assoc, List.singleton_append]
  | cons x xs ih =>
    rw [List.cons_append, scan_cons, scan_cons, ih (isScanState_step h x.toNat), List.append_assoc]

theorem newlineByte_mem_of_scan {state : Option Unfinished} (h : IsScanState state)
    {bytes : List UInt8} (hmem : some '\n' ∈ scan state bytes) : newlineByte ∈ bytes := by
  induction bytes generalizing state with
  | nil => exact absurd hmem (newline_notMem_scan_nil state)
  | cons byte bytes ih =>
    rw [scan_cons, List.mem_append] at hmem
    rcases hmem with hmem | hmem
    · have hbyte : newlineByte = byte := by
        rw [← UInt8.toNat_inj]
        exact (eq_of_newline_mem_step h hmem).symm
      exact hbyte ▸ List.mem_cons_self
    · exact List.mem_cons_of_mem byte (ih (isScanState_step h byte.toNat) hmem)

theorem scan_eq_nil_iff {state : Option Unfinished} (h : IsScanState state) (bytes : List UInt8) :
    scan state bytes = [] ↔ state = none ∧ bytes = [] := by
  induction bytes generalizing state with
  | nil => cases state <;> simp [scan]
  | cons byte bytes ih =>
    rw [scan_cons, List.append_eq_nil_iff, ih (isScanState_step h byte.toNat)]
    simp only [reduceCtorEq, and_false, iff_false]
    intro hnil
    exact step_ne_nil_none h byte.toNat (Prod.ext hnil.1 hnil.2.1)

/-! ### Decoded lines -/

theorem decodeLossy_append_ascii (xs : List UInt8) {byte : UInt8} (hbyte : byte.toNat < 0x80)
    (ys : List UInt8) :
    decodeLossy (xs ++ byte :: ys) =
      decodeLossy xs ++ String.singleton (Char.ofNat byte.toNat) ++ decodeLossy ys := by
  rw [decodeLossy, scan_append_ascii isScanState_none hbyte, List.map_append, List.map_cons,
    ← List.singleton_append, ← List.append_assoc, String.ofList_append, String.ofList_append]
  rfl

theorem decodeLossy_append_newline (xs ys : List UInt8) :
    decodeLossy (xs ++ newlineByte :: ys) = decodeLossy xs ++ "\n" ++ decodeLossy ys :=
  decodeLossy_append_ascii xs (by decide) ys

theorem newline_notMem_decodeLossy {bytes : List UInt8} (h : newlineByte ∉ bytes) :
    '\n' ∉ (decodeLossy bytes).toList := by
  intro hmem
  rw [decodeLossy, String.toList_ofList] at hmem
  obtain ⟨read, hread, hnewline⟩ := List.mem_map.mp hmem
  cases read with
  | none => exact absurd hnewline (by decide)
  | some c =>
    obtain rfl : c = '\n' := hnewline
    exact h (newlineByte_mem_of_scan isScanState_none hread)

theorem decodeLossy_eq_empty_iff (bytes : List UInt8) : decodeLossy bytes = "" ↔ bytes = [] := by
  rw [← String.toList_inj, decodeLossy, String.toList_ofList, String.toList_empty,
    List.map_eq_nil_iff, scan_eq_nil_iff isScanState_none]
  simp

/-- The bytes that a writer of text gives for what is read from `bytes`. -/
def reencode (bytes : List UInt8) : List UInt8 :=
  encode (decodeLossy bytes)

theorem reencode_append_newline (xs ys : List UInt8) :
    reencode (xs ++ newlineByte :: ys) = reencode xs ++ newlineByte :: reencode ys := by
  have hnewline : encode "\n" = [newlineByte] := rfl
  simp only [reencode, decodeLossy_append_newline, encode_append, hnewline, List.append_assoc,
    List.singleton_append]

theorem reencode_eq_nil_iff (bytes : List UInt8) : reencode bytes = [] ↔ bytes = [] := by
  constructor
  · intro h
    have htext := congrArg decodeLossy h
    rw [reencode, decodeLossy_encode] at htext
    exact (decodeLossy_eq_empty_iff bytes).mp htext
  · rintro rfl
    rfl

end Utf8

open Utf8

/-! ### Lines before and after decoding -/

/-- Cutting decoded input at newlines is decoding the parts between newline bytes. -/
theorem splitOn_decodeLossy (bytes : List UInt8) :
    (decodeLossy bytes).toList.splitOn '\n' =
      (bytes.splitOn newlineByte).map fun line => (decodeLossy line).toList := by
  induction bytes using lines_induction with
  | hlast tail htail =>
    rw [List.splitOn_eq_singleton htail,
      List.splitOn_eq_singleton (newline_notMem_decodeLossy htail)]
    rfl
  | hline body rest hbody ih =>
    have hnewline : (decodeLossy (body ++ newlineByte :: rest)).toList =
        (decodeLossy body).toList ++ '\n' :: (decodeLossy rest).toList := by
      simp [decodeLossy_append_newline]
    rw [hnewline, List.splitOn_append_cons_self, List.splitOn_append_cons_self, List.map_append, ih,
      List.splitOn_eq_singleton hbody, List.splitOn_eq_singleton (newline_notMem_decodeLossy hbody)]
    rfl

/-- A sequence that the end of its line cuts short is read as one replacement character. -/
example : decodeLossy [0xE2, 0x82, newlineByte, 0xAC, 0xF0] = "\uFFFD\n\uFFFD\uFFFD" := by decide

theorem newlineByte_notMem_reencode {bytes : List UInt8} (h : newlineByte ∉ bytes) :
    newlineByte ∉ reencode bytes := by
  intro hmem
  obtain ⟨c, hc, hbyte⟩ := List.mem_flatMap.mp hmem
  obtain rfl := eq_newline_of_mem_encodeChar hbyte
  exact newline_notMem_decodeLossy h hc

theorem cutLines_reencode (bytes : List UInt8) :
    cutLines (reencode bytes) = ((cutLines bytes).1.map reencode, reencode (cutLines bytes).2) := by
  induction bytes using lines_induction with
  | hlast tail htail =>
    rw [cutLines_of_newline_notMem htail,
      cutLines_of_newline_notMem (newlineByte_notMem_reencode htail)]
    rfl
  | hline body rest hbody ih =>
    rw [reencode_append_newline, cutLines_line_append hbody,
      cutLines_line_append (newlineByte_notMem_reencode hbody), ih, List.map_cons]
    have hline := reencode_append_newline body []
    rw [hline]
    rfl

end ColonForth.Text
