/-! Integer numerals: an optional sign, an optional radix mark and digits that may be grouped by
single underscores. -/
namespace ColonForth.Numeral

/-- The value of a digit in the radixes up to 36, where letters of either case follow `9`. -/
def digitValue? (c : Char) : Option Nat :=
  if '0' ≤ c ∧ c ≤ '9' then some (c.toNat - '0'.toNat)
  else if 'a' ≤ c ∧ c ≤ 'z' then some (c.toNat - 'a'.toNat + 10)
  else if 'A' ≤ c ∧ c ≤ 'Z' then some (c.toNat - 'A'.toNat + 10)
  else none

def digitBelow? (radix : Nat) (c : Char) : Option Nat :=
  (digitValue? c).filter (· < radix)

def positional? (radix : Nat) (digits : List Char) : Option Nat :=
  digits.foldlM (fun value c => (digitBelow? radix c).map (radix * value + ·)) 0

def hasDouble : List Char → Bool
  | '_' :: '_' :: _ => true
  | _ :: cs => hasDouble cs
  | [] => false

/-- Takes out the underscores, which may stand between digits only, one at a time. -/
def ungrouped? (cs : List Char) : Option (List Char) :=
  if cs.isEmpty || cs.head? == some '_' || cs.getLast? == some '_' || hasDouble cs then none
  else
    let digits := cs.filter (· != '_')
    if digits.all Char.isAlphanum then some digits else none

def grouped? (radix : Nat) (cs : List Char) : Option Nat :=
  (ungrouped? cs).bind (positional? radix)

/-- The radix of a numeral without its sign, and the digits that are left. `0x`, `0b`, `0o` and
`0d` name a radix, and any other leading zero that does not stand alone means octal. -/
def splitRadix : List Char → Nat × List Char
  | '0' :: 'x' :: cs | '0' :: 'X' :: cs => (16, cs)
  | '0' :: 'b' :: cs | '0' :: 'B' :: cs => (2, cs)
  | '0' :: 'o' :: cs | '0' :: 'O' :: cs => (8, cs)
  | '0' :: 'd' :: cs | '0' :: 'D' :: cs => (10, cs)
  | '0' :: c :: cs => (8, c :: cs)
  | cs => (10, cs)

def magnitude? (cs : List Char) : Option Nat :=
  grouped? (splitRadix cs).1 (splitRadix cs).2

def read? (text : String) : Option Int :=
  match text.toList with
  | '-' :: cs => (magnitude? cs).map fun n => -(n : Int)
  | '+' :: cs => (magnitude? cs).map fun n => (n : Int)
  | cs => (magnitude? cs).map fun n => (n : Int)

def decimal : Int → String
  | .ofNat n => n.repr
  | .negSucc n => "-" ++ (n + 1).repr

def decimalParts : Int → List String
  | .ofNat n => [n.repr]
  | .negSucc n => ["-", (n + 1).repr]

theorem join_decimalParts (n : Int) : String.join (decimalParts n) = decimal n := by
  cases n <;> simp [decimalParts, decimal]

private theorem digitBelow?_digitChar : ∀ k < 10, digitBelow? 10 k.digitChar = some k := by
  decide

theorem positional?_append (radix : Nat) (xs ys : List Char) :
    positional? radix (xs ++ ys) = (positional? radix xs).bind fun value =>
      ys.foldlM (fun value c => (digitBelow? radix c).map (radix * value + ·)) value := by
  simp [positional?, List.foldlM_append]

private theorem positional?_toDigits (n : Nat) : positional? 10 (Nat.toDigits 10 n) = some n := by
  induction n using Nat.base_induction 10 (by decide) with
  | single m hm => simp [Nat.toDigits_of_lt_base hm, positional?, digitBelow?_digitChar m hm]
  | digit m k hk hm ih =>
    rw [← Nat.toDigits_append_toDigits (by decide) hm hk, positional?_append, ih,
      Nat.toDigits_of_lt_base hk]
    simp [digitBelow?_digitChar k hk]

private theorem head?_toDigits_ne_zero {n : Nat} (hn : 0 < n) :
    (Nat.toDigits 10 n).head? ≠ some '0' := by
  induction n using Nat.base_induction 10 (by decide) with
  | single m hm => simpa [Nat.toDigits_of_lt_base hm] using Nat.ne_of_gt hn
  | digit m k hk hm ih =>
    have hne : Nat.toDigits 10 m ≠ [] := List.ne_nil_of_length_pos Nat.length_toDigits_pos
    obtain ⟨c, cs, hcs⟩ := List.exists_cons_of_ne_nil hne
    have hc : c ≠ '0' := by simpa [hcs] using ih hm
    rw [← Nat.toDigits_append_toDigits (by decide) hm hk, hcs]
    simpa using hc

theorem splitRadix_of_head {cs : List Char} (h : cs.head? ≠ some '0') :
    splitRadix cs = (10, cs) := by
  unfold splitRadix
  split <;> simp_all

private theorem splitRadix_toDigits (n : Nat) :
    splitRadix (Nat.toDigits 10 n) = (10, Nat.toDigits 10 n) := by
  rcases Nat.eq_zero_or_pos n with rfl | hn
  · simp [splitRadix]
  · exact splitRadix_of_head (head?_toDigits_ne_zero hn)

theorem hasDouble_eq_false {cs : List Char} (h : '_' ∉ cs) : hasDouble cs = false := by
  fun_induction hasDouble cs with
  | case1 => simp at h
  | case2 _ cs _ ih => exact ih fun hmem => h (List.mem_cons_of_mem _ hmem)
  | case3 => rfl

theorem ungrouped?_of_alphanum {cs : List Char} (hne : cs ≠ [])
    (h : ∀ c ∈ cs, c.isAlphanum = true) : ungrouped? cs = some cs := by
  have hunderscore : '_' ∉ cs := fun hmem => absurd (h _ hmem) (by decide)
  have hhead : cs.head? ≠ some '_' := fun heq => hunderscore (List.mem_of_head? heq)
  have hlast : cs.getLast? ≠ some '_' := fun heq => hunderscore (List.mem_of_getLast? heq)
  have hfilter : cs.filter (· != '_') = cs := by
    rw [List.filter_eq_self]
    intro c hc
    simp only [bne_iff_ne]
    rintro rfl
    exact hunderscore hc
  simpa [ungrouped?, hne, hhead, hlast, hasDouble_eq_false hunderscore, hfilter] using h

theorem magnitude?_toDigits (n : Nat) : magnitude? (Nat.toDigits 10 n) = some n := by
  have hne : Nat.toDigits 10 n ≠ [] := List.ne_nil_of_length_pos Nat.length_toDigits_pos
  have halphanum : ∀ c ∈ Nat.toDigits 10 n, c.isAlphanum = true := by
    intro c hc
    simp [Char.isAlphanum, Nat.isDigit_of_mem_toDigits (by decide) (by decide) hc]
  simp [magnitude?, splitRadix_toDigits, grouped?, ungrouped?_of_alphanum hne halphanum,
    positional?_toDigits]

private theorem not_sign_of_isDigit {c : Char} {cs : List Char} {n : Nat}
    (h : Nat.toDigits 10 n = c :: cs) : c ≠ '-' ∧ c ≠ '+' := by
  have hc : c.isDigit = true :=
    Nat.isDigit_of_mem_toDigits (by decide) (by decide) (h ▸ List.mem_cons_self)
  constructor <;> rintro rfl <;> simp at hc

/-- Every integer is read back from its decimal form. -/
@[simp] theorem read?_decimal (n : Int) : read? (decimal n) = some n := by
  cases n with
  | ofNat n =>
    simp only [decimal, read?, Nat.toList_repr]
    split
    · next h => exact absurd rfl (not_sign_of_isDigit h).1
    · next h => exact absurd rfl (not_sign_of_isDigit h).2
    · simp [magnitude?_toDigits]
  | negSucc n =>
    simp [decimal, read?, magnitude?_toDigits, Int.negSucc_eq]

end ColonForth.Numeral
