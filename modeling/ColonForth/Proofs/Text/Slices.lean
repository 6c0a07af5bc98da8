import ColonForth.Proofs.Text.Runs
import ColonForth.Text.Utf8

/-! Slices that may fail. A slice of a list wants its ends in order and in range, and a slice of a
text, which is a list of bytes, wants them between two characters as well. -/
namespace ColonForth

/-- The elements from `first` on that stand before `last`. -/
def slice? {α : Type} (xs : List α) (first last : Nat) : Option (List α) :=
  if first ≤ last ∧ last ≤ xs.length then some ((xs.drop first).take (last - first)) else none

def minus? (m n : Nat) : Option Nat :=
  if n ≤ m then some (m - n) else none

theorem slice?_append {α : Type} (before part after : List α) :
    slice? (before ++ (part ++ after)) before.length (before.length + part.length) =
      some part := by
  have hrange : before.length ≤ before.length + part.length ∧
      before.length + part.length ≤ (before ++ (part ++ after)).length := by
    simp only [List.length_append]
    omega
  rw [slice?, if_pos hrange, List.drop_left, Nat.add_sub_cancel_left, List.take_left]

theorem slice?_front {α : Type} (part after : List α) :
    slice? (part ++ after) 0 part.length = some part := by
  simpa using slice?_append [] part after

theorem slice?_behind {α : Type} (before part : List α) :
    slice? (before ++ part) before.length (before ++ part).length = some part := by
  simpa using slice?_append before part []

theorem minus?_eq_some {m n : Nat} (h : n ≤ m) : minus? m n = some (m - n) :=
  if_pos h

namespace Text.Utf8

def continues (byte : UInt8) : Bool :=
  decide (0x80 ≤ byte.toNat) && decide (byte.toNat < 0xC0)

/-- The place is not inside of a character, and not behind the end. -/
def isBoundary (bytes : List UInt8) (place : Nat) : Bool :=
  place == 0 || place == bytes.length || bytes[place]?.any (!continues ·)

/-- The bytes from `first` on that stand before `last`. Slices do not cut characters apart. -/
def textSlice? (bytes : List UInt8) (first last : Nat) : Option (List UInt8) :=
  if isBoundary bytes first ∧ isBoundary bytes last then slice? bytes first last else none

def asciiByte (c : Char) : UInt8 :=
  UInt8.ofNat c.toNat

def encodeChars (cs : List Char) : List UInt8 :=
  cs.flatMap String.utf8EncodeChar

@[simp] theorem encodeChars_append (cs ds : List Char) :
    encodeChars (cs ++ ds) = encodeChars cs ++ encodeChars ds := by
  simp [encodeChars]

@[simp] theorem encodeChars_singleton (c : Char) :
    encodeChars [c] = String.utf8EncodeChar c := by
  simp [encodeChars]

theorem encodeChars_cons (c : Char) (cs : List Char) :
    encodeChars (c :: cs) = String.utf8EncodeChar c ++ encodeChars cs := by
  simp [encodeChars]

theorem encode_eq (text : String) : encode text = encodeChars text.toList := rfl

theorem encode_ofList (cs : List Char) : encode (String.ofList cs) = encodeChars cs := by
  rw [encode_eq, String.toList_ofList]

theorem toNat_asciiByte {c : Char} (h : c.toNat < 0x80) : (asciiByte c).toNat = c.toNat := by
  rw [asciiByte, UInt8.toNat_ofNat']
  omega

theorem continues_eq_false {byte : UInt8} (h : byte.toNat < 0x80 ∨ 0xC0 ≤ byte.toNat) :
    continues byte = false := by
  rw [continues, Bool.and_eq_false_iff, decide_eq_false_iff_not, decide_eq_false_iff_not]
  omega

/-- An ASCII character begins with its byte, and any other character with a byte that belongs to no
ASCII character and continues none. -/
theorem exists_encodeChar_eq_cons (c : Char) :
    ∃ byte rest, String.utf8EncodeChar c = byte :: rest ∧
      (c.toNat < 0x80 ∧ byte = asciiByte c ∨ 0x80 ≤ c.toNat ∧ 0xC0 ≤ byte.toNat) := by
  have hv : c.toNat < 0xD800 ∨ 0xDFFF < c.toNat ∧ c.toNat < 0x110000 := c.valid
  have hc : c.val.toNat = c.toNat := rfl
  have hlead : ∀ code, 0xC0 ≤ code → code < 0x100 → 0xC0 ≤ (UInt8.ofNat code).toNat := by
    intro code hle hlt
    rw [UInt8.toNat_ofNat']
    omega
  unfold String.utf8EncodeChar
  simp only [hc]
  split
  · exact ⟨_, _, rfl, Or.inl ⟨by omega, rfl⟩⟩
  split
  · exact ⟨_, _, rfl, Or.inr ⟨by omega, hlead _ (by omega) (by omega)⟩⟩
  split
  · exact ⟨_, _, rfl, Or.inr ⟨by omega, hlead _ (by omega) (by omega)⟩⟩
  · exact ⟨_, _, rfl, Or.inr ⟨by omega, hlead _ (by omega) (by omega)⟩⟩

theorem isBoundary_append (cs ds : List Char) :
    isBoundary (encodeChars cs ++ encodeChars ds) (encodeChars cs).length = true := by
  cases ds with
  | nil => simp [isBoundary, encodeChars]
  | cons d ds =>
    obtain ⟨byte, rest, hd, hbyte⟩ := exists_encodeChar_eq_cons d
    have hcontinues : continues byte = false := by
      apply continues_eq_false
      rcases hbyte with ⟨hascii, rfl⟩ | ⟨-, hfirst⟩
      · exact Or.inl (by rwa [toNat_asciiByte hascii])
      · exact Or.inr hfirst
    simp [isBoundary, encodeChars_cons, hd, hcontinues]

theorem textSlice?_append (before part after : List Char) :
    textSlice? (encodeChars before ++ (encodeChars part ++ encodeChars after))
      (encodeChars before).length ((encodeChars before).length + (encodeChars part).length) =
        some (encodeChars part) := by
  have hfirst := isBoundary_append before (part ++ after)
  have hlast := isBoundary_append (before ++ part) after
  rw [encodeChars_append] at hfirst
  rw [encodeChars_append, List.append_assoc, List.length_append] at hlast
  rw [textSlice?, if_pos ⟨hfirst, hlast⟩, slice?_append]

theorem textSlice?_behind (before after : List Char) :
    textSlice? (encodeChars before ++ encodeChars after) (encodeChars before).length
      (encodeChars before ++ encodeChars after).length = some (encodeChars after) := by
  have h := textSlice?_append before after []
  rwa [show encodeChars [] = [] from rfl, List.append_nil, ← List.length_append] at h

/-- The second letter is two bytes long. -/
example : textSlice? (encode "né") 0 1 = some (encode "n") ∧ textSlice? (encode "né") 0 2 = none ∧
    textSlice? (encode "né") 1 4 = none := by decide

end Text.Utf8

namespace Text
open Utf8

def places (start : Nat) : List Char → List (Nat × Char)
  | [] => []
  | c :: cs => (start, c) :: places (start + c.utf8Size) cs

/-- The runs that have ended, whether they are blank, and the place at which the run begins that
has not. -/
structure RunScan where
  ended : List (Bool × List UInt8)
  start : Nat
  blank : Option Bool

namespace RunScan

/-- Reads the character at a place. A run ends where a blank meets a character that is not blank. -/
def step (bytes : List UInt8) (s : RunScan) (next : Nat × Char) : Option RunScan :=
  match s.blank with
  | some blank =>
    if blank = isBlank next.2 then some { s with blank := isBlank next.2 }
    else (textSlice? bytes s.start next.1).map fun run =>
      ⟨s.ended ++ [(blank, run)], next.1, isBlank next.2⟩
  | none => some { s with blank := isBlank next.2 }

def finish (bytes : List UInt8) (s : RunScan) : Option (List (Bool × List UInt8)) :=
  match s.blank with
  | some blank =>
    (textSlice? bytes s.start bytes.length).map fun run => s.ended ++ [(blank, run)]
  | none => some s.ended

end RunScan

/-- The runs of a line as they are cut out of its bytes, or nothing if a slice fails. -/
def runs? (line : String) : Option (List (Bool × List UInt8)) :=
  ((places 0 line.toList).foldlM (RunScan.step (encode line)) ⟨[], 0, none⟩).bind
    (RunScan.finish (encode line))

def spelledRun (run : List Char) : Bool × List UInt8 :=
  (run.all isBlank, encodeChars run)

theorem spelledRun_eq {run : List Char} {blank : Bool} (hne : run ≠ [])
    (h : ∀ c ∈ run, isBlank c = blank) : spelledRun run = (blank, encodeChars run) := by
  obtain ⟨c, cs, rfl⟩ := List.exists_cons_of_ne_nil hne
  have hfirst := h c List.mem_cons_self
  cases blank with
  | true => rw [spelledRun, List.all_eq_true.mpr h]
  | false => simp [spelledRun, hfirst]

theorem splitBy_of_same {run : List Char} {blank : Bool} (hne : run ≠ [])
    (h : ∀ c ∈ run, isBlank c = blank) :
    run.splitBy (fun c d => isBlank c == isBlank d) = [run] := by
  apply List.splitBy_of_isChain hne
  apply List.Pairwise.isChain
  apply List.pairwise_of_forall_mem_list
  intro c hc d hd
  rw [h c hc, h d hd, beq_self_eq_true]

namespace RunScan

variable {before current : List Char} {ended : List (Bool × List UInt8)} {blank : Bool}

theorem step_of_same {c : Char} (hc : isBlank c = blank) (bytes : List UInt8)
    (start place : Nat) :
    step bytes ⟨ended, start, blank⟩ (place, c) = some ⟨ended, start, blank⟩ := by
  simp [step, hc]

theorem step_of_other {c : Char} (hc : isBlank c ≠ blank) (after : List Char) :
    step (encodeChars (before ++ (current ++ after)))
      ⟨ended, (encodeChars before).length, blank⟩ ((encodeChars (before ++ current)).length, c) =
        some ⟨ended ++ [(blank, encodeChars current)], (encodeChars (before ++ current)).length,
          isBlank c⟩ := by
  simp [step, Ne.symm hc, textSlice?_append]

theorem finish_eq_some :
    finish (encodeChars (before ++ current)) ⟨ended, (encodeChars before).length, blank⟩ =
      some (ended ++ [(blank, encodeChars current)]) := by
  simp [finish, textSlice?_behind, -List.length_append]

theorem scan_eq_some {line : List Char} (cs before current : List Char)
    (ended : List (Bool × List UInt8)) (blank : Bool) (hline : line = before ++ (current ++ cs))
    (hne : current ≠ []) (hsame : ∀ c ∈ current, isBlank c = blank) :
    ((places (encodeChars (before ++ current)).length cs).foldlM (step (encodeChars line))
      ⟨ended, (encodeChars before).length, blank⟩).bind (finish (encodeChars line)) =
        some (ended ++
          ((current ++ cs).splitBy fun c d => isBlank c == isBlank d).map spelledRun) := by
  -- A character of the same kind makes the current run longer, any other begins the next one.
  induction cs generalizing before current ended blank with
  | nil =>
    rw [List.append_nil] at hline ⊢
    rw [hline, splitBy_of_same hne hsame, List.map_singleton, spelledRun_eq hne hsame]
    exact finish_eq_some
  | cons c cs ih =>
    have hplace : (encodeChars (before ++ current)).length + c.utf8Size =
        (encodeChars (before ++ (current ++ [c]))).length := by
      simp [Nat.add_assoc]
    rw [places, List.foldlM_cons, hplace]
    by_cases hc : isBlank c = blank
    · have hsame' : ∀ d ∈ current ++ [c], isBlank d = blank := by
        simpa [or_imp, forall_and] using ⟨hsame, hc⟩
      have hrest := ih before (current ++ [c]) ended blank (by simpa using hline) (by simp) hsame'
      rw [step_of_same hc]
      simpa using hrest
    · have hlast : ∀ d ∈ current.getLast?, (isBlank d == isBlank c) = false := by
        intro d hd
        rw [hsame d (List.mem_of_getLast? hd), beq_eq_false_iff_ne]
        exact Ne.symm hc
      have hrest := ih (before ++ current) [c] (ended ++ [(blank, encodeChars current)])
        (isBlank c) (by simpa using hline) (by simp) (by simp)
      rw [hline, step_of_other hc, ← hline, List.splitBy_append_cons cs hlast,
        splitBy_of_same hne hsame, List.map_append, List.map_singleton, spelledRun_eq hne hsame]
      simpa using hrest

end RunScan

/-- The runs of a line are cut out one by one, and no slice fails. -/
theorem runs?_eq_some (line : String) :
    runs? line = some ((runs line).map fun run => (run.toList.all isBlank, encode run)) := by
  have hruns : (runs line).map (fun run => (run.toList.all isBlank, encode run)) =
      (line.toList.splitBy fun c d => isBlank c == isBlank d).map spelledRun := by
    simp [runs, spelledRun, encode_ofList, Function.comp_def]
  rw [hruns, runs?, encode_eq]
  cases line.toList with
  | nil => rfl
  | cons c cs =>
    have hrest := RunScan.scan_eq_some cs [] [c] [] (isBlank c) rfl (by simp) (by simp)
    simpa [places, RunScan.step, encodeChars] using hrest

end Text

end ColonForth
