/-! UTF-8, read one byte at a time. A sequence that has begun bounds its next byte, so that overlong
forms, surrogates and values past the last code point are refused at their second byte. -/
namespace ColonForth.Text.Utf8

def encode (text : String) : List UInt8 :=
  text.toList.flatMap String.utf8EncodeChar

@[simp] theorem encode_append (s t : String) : encode (s ++ t) = encode s ++ encode t := by
  simp [encode]

theorem encode_join (texts : List String) :
    encode (String.join texts) = (texts.map encode).flatten := by
  induction texts with
  | nil => rfl
  | cons text texts ih => simp [ih]

/-- A sequence that lacks `missing` more bytes, the next one between `low` and `high`. `bits` is
the number that its bytes have spelled up to now. -/
structure Unfinished where
  bits : Nat
  missing : Nat
  low : Nat
  high : Nat

/-- What the first byte of a sequence says. Malformed characters are `none`. -/
def start (byte : Nat) : List (Option Char) × Option Unfinished :=
  if byte < 0x80 then ([some (Char.ofNat byte)], none)
  else if byte < 0xC2 then ([none], none)
  else if byte < 0xE0 then ([], some ⟨byte - 0xC0, 1, 0x80, 0xBF⟩)
  else if byte < 0xF0 then
    ([], some ⟨byte - 0xE0, 2,
      if byte = 0xE0 then 0xA0 else 0x80, if byte = 0xED then 0x9F else 0xBF⟩)
  else if byte < 0xF5 then
    ([], some ⟨byte - 0xF0, 3,
      if byte = 0xF0 then 0x90 else 0x80, if byte = 0xF4 then 0x8F else 0xBF⟩)
  else ([none], none)

/-- Reads one byte. A byte that does not continue the sequence makes the sequence malformed and
starts anew. -/
def step (state : Option Unfinished) (byte : Nat) : List (Option Char) × Option Unfinished :=
  match state with
  | none => start byte
  | some u =>
    if u.low ≤ byte ∧ byte ≤ u.high then
      let bits := u.bits * 0x40 + (byte - 0x80)
      if u.missing ≤ 1 then ([some (Char.ofNat bits)], none)
      else ([], some ⟨bits, u.missing - 1, 0x80, 0xBF⟩)
    else (none :: (start byte).1, (start byte).2)

def scan : Option Unfinished → List UInt8 → List (Option Char)
  | none, [] => []
  | some _, [] => [none]
  | state, byte :: bytes =>
    (step state byte.toNat).1 ++ scan (step state byte.toNat).2 bytes

def replacement : Char :=
  '\uFFFD'

/-- Every malformed character becomes a replacement character. -/
def decodeLossy (bytes : List UInt8) : String :=
  String.ofList ((scan none bytes).map (·.getD replacement))

def decode? (bytes : List UInt8) : Option String :=
  if none ∈ scan none bytes then none else some (decodeLossy bytes)

theorem scan_cons (state : Option Unfinished) (byte : UInt8) (bytes : List UInt8) :
    scan state (byte :: bytes) =
      (step state byte.toNat).1 ++ scan (step state byte.toNat).2 bytes := by
  cases state <;> rfl

private theorem step_ascii {byte : Nat} (h : byte < 0x80) :
    step none byte = ([some (Char.ofNat byte)], none) := by
  simp [step, start, h]

private theorem step_lead (byte : Nat) (h : 0xC2 ≤ byte) (h' : byte < 0xF5) :
    ∃ u, step none byte = ([], some u) ∧
      (byte < 0xE0 → u = ⟨byte - 0xC0, 1, 0x80, 0xBF⟩) ∧
      (0xE0 ≤ byte → byte < 0xF0 → u =
        ⟨byte - 0xE0, 2, if byte = 0xE0 then 0xA0 else 0x80, if byte = 0xED then 0x9F else 0xBF⟩) ∧
      (0xF0 ≤ byte → u =
        ⟨byte - 0xF0, 3, if byte = 0xF0 then 0x90 else 0x80,
          if byte = 0xF4 then 0x8F else 0xBF⟩) := by
  simp only [step, start]
  rw [if_neg (by omega), if_neg (by omega)]
  by_cases h₂ : byte < 0xE0
  · rw [if_pos h₂]
    exact ⟨_, rfl, fun _ => rfl, by omega, by omega⟩
  by_cases h₃ : byte < 0xF0
  · rw [if_neg h₂, if_pos h₃]
    exact ⟨_, rfl, by omega, fun _ _ => rfl, by omega⟩
  · rw [if_neg h₂, if_neg h₃, if_pos h']
    exact ⟨_, rfl, by omega, by omega, fun _ => rfl⟩

private theorem step_inner {u : Unfinished} {byte : Nat} (hl : u.low ≤ byte) (hh : byte ≤ u.high)
    (hm : 1 < u.missing) :
    step (some u) byte = ([], some ⟨u.bits * 0x40 + (byte - 0x80), u.missing - 1, 0x80, 0xBF⟩) := by
  have : ¬ u.missing ≤ 1 := by omega
  simp [step, hl, hh, this]

private theorem step_last {u : Unfinished} {byte : Nat} (hl : u.low ≤ byte) (hh : byte ≤ u.high)
    (hm : u.missing = 1) :
    step (some u) byte = ([some (Char.ofNat (u.bits * 0x40 + (byte - 0x80)))], none) := by
  simp [step, hl, hh, hm]

private theorem toNat_ofNat {n : Nat} (h : n < 256) : (UInt8.ofNat n).toNat = n := by
  simp [UInt8.toNat_ofNat', Nat.mod_eq_of_lt h]

private theorem ofNat_eq {c : Char} {n : Nat} (h : n = c.toNat) : Char.ofNat n = c := by
  subst h
  exact Char.ofNat_toNat c

theorem scan_encodeChar (c : Char) (rest : List UInt8) :
    scan none (String.utf8EncodeChar c ++ rest) = some c :: scan none rest := by
  have hv : c.toNat < 0xD800 ∨ 0xDFFF < c.toNat ∧ c.toNat < 0x110000 := c.valid
  have hc : c.val.toNat = c.toNat := rfl
  unfold String.utf8EncodeChar
  simp only [hc]
  split
  · rw [List.singleton_append, scan_cons, toNat_ofNat (by omega), step_ascii (by omega),
      ofNat_eq (c := c) rfl]
    rfl
  split
  · obtain ⟨u, hstep, hu, -, -⟩ := step_lead (c.toNat / 64 % 32 + 192) (by omega) (by omega)
    obtain rfl := hu (by omega)
    simp only [List.cons_append, List.nil_append, scan_cons]
    rw [toNat_ofNat (by omega), toNat_ofNat (by omega), hstep,
      step_last (by simp only; omega) (by simp only; omega) rfl,
      ofNat_eq (c := c) (by simp only; omega)]
    rfl
  split
  · obtain ⟨u, hstep, -, hu, -⟩ := step_lead (c.toNat / 4096 % 16 + 224) (by omega) (by omega)
    obtain rfl := hu (by omega) (by omega)
    simp only [List.cons_append, List.nil_append, scan_cons]
    rw [toNat_ofNat (by omega), toNat_ofNat (by omega), toNat_ofNat (by omega), hstep,
      step_inner (by simp only; split <;> omega) (by simp only; split <;> omega)
        (by simp only; omega),
      step_last (by simp only; omega) (by simp only; omega) rfl,
      ofNat_eq (c := c) (by simp only; omega)]
    rfl
  · obtain ⟨u, hstep, -, -, hu⟩ := step_lead (c.toNat / 262144 % 8 + 240) (by omega) (by omega)
    obtain rfl := hu (by omega)
    simp only [List.cons_append, List.nil_append, scan_cons]
    rw [toNat_ofNat (by omega), toNat_ofNat (by omega), toNat_ofNat (by omega),
      toNat_ofNat (by omega), hstep,
      step_inner (by simp only; split <;> omega) (by simp only; split <;> omega)
        (by simp only; omega),
      step_inner (by simp only; omega) (by simp only; omega) (by simp only; omega),
      step_last (by simp only; omega) (by simp only; omega) rfl,
      ofNat_eq (c := c) (by simp only; omega)]
    rfl

theorem scan_encode (cs : List Char) (rest : List UInt8) :
    scan none (cs.flatMap String.utf8EncodeChar ++ rest) = cs.map some ++ scan none rest := by
  induction cs with
  | nil => rfl
  | cons c cs ih => simp [scan_encodeChar, ih]

@[simp] theorem decodeLossy_encode (text : String) : decodeLossy (encode text) = text := by
  have h := scan_encode text.toList []
  rw [List.append_nil] at h
  simp [decodeLossy, encode, h, scan, Function.comp_def]

@[simp] theorem decode?_encode (text : String) : decode? (encode text) = some text := by
  have h := scan_encode text.toList []
  rw [List.append_nil] at h
  have hscan : none ∉ scan none (encode text) := by simp [encode, h, scan]
  rw [decode?, if_neg hscan, decodeLossy_encode]

end ColonForth.Text.Utf8
