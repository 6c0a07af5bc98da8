import ColonForth.Proofs.Word.Clause
import ColonForth.Word.Numeral
import Mathlib.Data.List.Forall2
import Mathlib.Data.Nat.Digits.Defs

/-! The grammar of numerals. Reading a text is deciding whether it is a numeral. -/
namespace ColonForth.Numeral
open Text

/-- The character is the digit with the value. Digits behind `9` are letters of either case. -/
def IsDigit (radix : Nat) (c : Char) (value : Nat) : Prop :=
  value < radix ∧
    ("0123456789abcdefghijklmnopqrstuvwxyz".toList[value]? = some c ∨
      "0123456789ABCDEFGHIJKLMNOPQRSTUVWXYZ".toList[value]? = some c)

/-- One or more groups of digits with single underscores between them, and the positional value of
all the digits. -/
inductive IsGrouped (radix : Nat) : List Char → Nat → Prop
  | intro (groups : List (List Char)) (values : List Nat) (hne : groups ≠ [])
      (hgroups : ∀ group ∈ groups, group ≠ [])
      (hvalues : List.Forall₂ (IsDigit radix) groups.flatten values) :
      IsGrouped radix (['_'].intercalate groups) (Nat.ofDigits radix values.reverse)

def marks : List (Char × Nat) :=
  [('x', 16), ('X', 16), ('b', 2), ('B', 2), ('o', 8), ('O', 8), ('d', 10), ('D', 10)]

inductive IsMagnitude : List Char → Nat → Prop
  | marked {mark : Char} {radix : Nat} {cs : List Char} {n : Nat} (hmark : (mark, radix) ∈ marks)
      (h : IsGrouped radix cs n) : IsMagnitude ('0' :: mark :: cs) n
  | octal {cs : List Char} {n : Nat} (h : IsGrouped 8 cs n) : IsMagnitude ('0' :: cs) n
  | zero : IsMagnitude ['0'] 0
  | decimal {first : Char} {cs : List Char} {n : Nat} (hfirst : '1' ≤ first ∧ first ≤ '9')
      (h : IsGrouped 10 (first :: cs) n) : IsMagnitude (first :: cs) n

inductive IsNumeral : List Char → Int → Prop
  | unsigned {cs : List Char} {n : Nat} (h : IsMagnitude cs n) : IsNumeral cs n
  | plus {cs : List Char} {n : Nat} (h : IsMagnitude cs n) : IsNumeral ('+' :: cs) n
  | minus {cs : List Char} {n : Nat} (h : IsMagnitude cs n) : IsNumeral ('-' :: cs) (-n)

/-- The radix that a numeral without a sign has by its first characters, and the characters that are
to be digits of it or underscores between them. -/
inductive Spells : List Char → Nat → List Char → Prop
  | marked {mark : Char} {radix : Nat} (hmark : (mark, radix) ∈ marks) (cs : List Char) :
      Spells ('0' :: mark :: cs) radix cs
  | octal {c : Char} (hc : ∀ radix, (c, radix) ∉ marks) (cs : List Char) :
      Spells ('0' :: c :: cs) 8 (c :: cs)
  | decimal {c : Char} (hc : c ∉ ['0', '+', '-']) (cs : List Char) : Spells (c :: cs) 10 (c :: cs)

def signs : List (List Char) :=
  [[], ['+'], ['-']]

inductive Misspelled : List Char → Prop
  | underscoreFirst {sign core rest : List Char} {radix : Nat} (hsign : sign ∈ signs)
      (h : Spells core radix ('_' :: rest)) : Misspelled (sign ++ core)
  | underscoreLast (before : List Char) : Misspelled (before ++ ['_'])
  | underscoreTwice (before after : List Char) : Misspelled (before ++ '_' :: '_' :: after)
  | signBehind {c : Char} (hc : c = '+' ∨ c = '-') (first : Char) (before after : List Char) :
      Misspelled (first :: (before ++ c :: after))
  | notBelow {sign core rest : List Char} {radix : Nat} {c : Char} (hsign : sign ∈ signs)
      (h : Spells core radix rest) (hc : c ∈ rest) (hunderscore : c ≠ '_')
      (hdigit : ∀ value, ¬ IsDigit radix c value) : Misspelled (sign ++ core)
  | notAscii {c : Char} {cs : List Char} (hc : c ∈ cs) (h : 0x80 ≤ c.toNat) : Misspelled cs

/-! ### Digits -/

/-- Digits with consecutive codes are found at consecutive places. -/
theorem getElem?_of_codes {digits : List Char} {first place count : Nat}
    (hdigits : ∀ k < count, digits[k + place]? = some (Char.ofNat (first + k))) {c : Char}
    (hfirst : first ≤ c.toNat) (hlast : c.toNat - first < count) :
    digits[c.toNat - first + place]? = some c := by
  rw [hdigits _ hlast, Nat.add_sub_cancel' hfirst, Char.ofNat_toNat]

theorem digitValue?_eq_some_iff (c : Char) (value : Nat) :
    digitValue? c = some value ↔
      "0123456789abcdefghijklmnopqrstuvwxyz".toList[value]? = some c ∨
        "0123456789ABCDEFGHIJKLMNOPQRSTUVWXYZ".toList[value]? = some c := by
  constructor
  · have hnumbers : ∀ k < 10, "0123456789abcdefghijklmnopqrstuvwxyz".toList[k + 0]? =
        some (Char.ofNat (0x30 + k)) := by decide
    have hlower : ∀ k < 26, "0123456789abcdefghijklmnopqrstuvwxyz".toList[k + 10]? =
        some (Char.ofNat (0x61 + k)) := by decide
    have hupper : ∀ k < 26, "0123456789ABCDEFGHIJKLMNOPQRSTUVWXYZ".toList[k + 10]? =
        some (Char.ofNat (0x41 + k)) := by decide
    intro h
    unfold digitValue? at h
    split at h
    · next hnumber =>
      have hrange : 0x30 ≤ c.toNat ∧ c.toNat ≤ 0x39 := hnumber
      obtain rfl := Option.some.inj h
      exact Or.inl (getElem?_of_codes hnumbers hrange.1 (by omega))
    split at h
    · next hletter =>
      have hrange : 0x61 ≤ c.toNat ∧ c.toNat ≤ 0x7A := hletter
      obtain rfl := Option.some.inj h
      exact Or.inl (getElem?_of_codes hlower hrange.1 (by omega))
    split at h
    · next hletter =>
      have hrange : 0x41 ≤ c.toNat ∧ c.toNat ≤ 0x5A := hletter
      obtain rfl := Option.some.inj h
      exact Or.inr (getElem?_of_codes hupper hrange.1 (by omega))
    · cases h
  · have hlower : ∀ k < 36,
        ("0123456789abcdefghijklmnopqrstuvwxyz".toList[k]?).bind digitValue? = some k := by decide
    have hupper : ∀ k < 36,
        ("0123456789ABCDEFGHIJKLMNOPQRSTUVWXYZ".toList[k]?).bind digitValue? = some k := by decide
    rintro (h | h)
    · have hvalue := hlower value (List.getElem?_eq_some_iff.mp h).1
      rwa [h, Option.bind_some] at hvalue
    · have hvalue := hupper value (List.getElem?_eq_some_iff.mp h).1
      rwa [h, Option.bind_some] at hvalue

theorem toNat_of_digitValue? {c : Char} {value : Nat} (h : digitValue? c = some value) :
    0x30 ≤ c.toNat ∧ c.toNat ≤ 0x39 ∨ 0x61 ≤ c.toNat ∧ c.toNat ≤ 0x7A ∨
      0x41 ≤ c.toNat ∧ c.toNat ≤ 0x5A := by
  unfold digitValue? at h
  split at h
  · next hdigit => exact Or.inl hdigit
  split at h
  · next hlower => exact Or.inr (Or.inl hlower)
  split at h
  · next hupper => exact Or.inr (Or.inr hupper)
  · cases h

theorem digitBelow?_eq_some_iff (radix : Nat) (c : Char) (value : Nat) :
    digitBelow? radix c = some value ↔ IsDigit radix c value := by
  rw [digitBelow?, Option.filter_eq_some_iff, digitValue?_eq_some_iff, decide_eq_true_eq, and_comm]
  rfl

theorem isAlphanum_of_isDigit {radix value : Nat} {c : Char} (h : IsDigit radix c value) :
    c.isAlphanum = true := by
  have hcodes : ∀ code < 0x80, 0x30 ≤ code ∧ code ≤ 0x39 ∨ 0x61 ≤ code ∧ code ≤ 0x7A ∨
      0x41 ≤ code ∧ code ≤ 0x5A → (Char.ofNat code).isAlphanum = true := by decide
  have hrange := toNat_of_digitValue? ((digitValue?_eq_some_iff c value).mpr h.2)
  rw [← Char.ofNat_toNat c]
  exact hcodes c.toNat (by omega) hrange

/-- Digits are read one by one, and each of them multiplies by the radix what was read. -/
theorem foldlM_eq_some_iff {radix start n : Nat} {cs : List Char} :
    cs.foldlM (fun value c => (digitBelow? radix c).map (radix * value + ·)) start = some n ↔
      ∃ values, List.Forall₂ (IsDigit radix) cs values ∧
        n = Nat.ofDigits radix (values.reverse ++ [start]) := by
  induction cs generalizing start with
  | nil =>
    constructor
    · intro h
      exact ⟨[], .nil, by simpa using h.symm⟩
    · rintro ⟨values, hvalues, rfl⟩
      cases hvalues
      simp
  | cons c cs ih =>
    -- The value of the first digit joins what was read before it.
    have hjoin : ∀ (value : Nat) (values : List Nat),
        Nat.ofDigits radix (values.reverse ++ [radix * start + value]) =
          Nat.ofDigits radix ((value :: values).reverse ++ [start]) := by
      intro value values
      simp [Nat.ofDigits_append, Nat.ofDigits_cons, Nat.add_comm value]
    rw [List.foldlM_cons, Option.bind_eq_bind, Option.bind_eq_some_iff]
    constructor
    · rintro ⟨next, hnext, hrest⟩
      obtain ⟨value, hvalue, rfl⟩ := Option.map_eq_some_iff.mp hnext
      obtain ⟨values, hvalues, rfl⟩ := ih.mp hrest
      exact ⟨value :: values, .cons ((digitBelow?_eq_some_iff _ _ _).mp hvalue) hvalues,
        hjoin value values⟩
    · rintro ⟨values, hvalues, rfl⟩
      cases hvalues with
      | @cons _ value _ values hvalue hvalues =>
        refine ⟨radix * start + value, ?_, ih.mpr ⟨values, hvalues, (hjoin value values).symm⟩⟩
        rw [(digitBelow?_eq_some_iff _ _ _).mpr hvalue, Option.map_some]

theorem positional?_eq_some_iff {radix n : Nat} {cs : List Char} :
    positional? radix cs = some n ↔
      ∃ values, List.Forall₂ (IsDigit radix) cs values ∧ n = Nat.ofDigits radix values.reverse := by
  simp only [positional?, foldlM_eq_some_iff, Nat.ofDigits_append_zero]

theorem exists_isDigit_of_mem {radix : Nat} {cs : List Char} {values : List Nat}
    (h : List.Forall₂ (IsDigit radix) cs values) {c : Char} (hc : c ∈ cs) :
    ∃ value, IsDigit radix c value := by
  have hdigits : List.Forall₂
      (fun c value => (∃ value, IsDigit radix c value) ∧ IsDigit radix c value) cs values :=
    h.imp fun _ value hvalue => ⟨⟨value, hvalue⟩, hvalue⟩
  exact ((List.forall₂_and_left cs values).mp hdigits).1 c hc

theorem not_isDigit_underscore (radix value : Nat) : ¬ IsDigit radix '_' value := by
  rw [← digitBelow?_eq_some_iff]
  intro h
  cases h

theorem number_of_isDigit {radix value : Nat} {c : Char} (hradix : radix ≤ 10)
    (h : IsDigit radix c value) : '0' ≤ c ∧ c ≤ '9' := by
  obtain ⟨hlt, hvalue⟩ := h
  rw [← digitValue?_eq_some_iff] at hvalue
  unfold digitValue? at hvalue
  split at hvalue
  · next hnumber => exact hnumber
  split at hvalue
  · have := Option.some.inj hvalue
    omega
  split at hvalue
  · have := Option.some.inj hvalue
    omega
  · cases hvalue

/-! ### Groups of digits -/

theorem flatten_splitOn (a : Char) (cs : List Char) :
    (cs.splitOn a).flatten = cs.filter (· != a) := by
  induction cs with
  | nil => simp
  | cons c cs ih =>
    obtain ⟨first, rest, hsplit⟩ := List.exists_cons_of_ne_nil (List.splitOn_ne_nil a cs)
    rw [List.splitOn_cons_eq_if_modifyHead]
    by_cases hc : c = a
    · simp [hc, ih]
    · rw [hsplit, List.flatten_cons] at ih
      simp [hc, hsplit, ih]

theorem splitOn_underscore_cons (cs : List Char) :
    ('_' :: cs).splitOn '_' = [] :: cs.splitOn '_' := by
  simp [List.splitOn_cons_eq_if_modifyHead]

theorem tail_splitOn_cons {c : Char} (hc : c ≠ '_') (cs : List Char) :
    ((c :: cs).splitOn '_').tail = (cs.splitOn '_').tail := by
  obtain ⟨first, rest, hsplit⟩ := List.exists_cons_of_ne_nil (List.splitOn_ne_nil '_' cs)
  rw [List.splitOn_cons_eq_if_modifyHead, if_neg (by simpa using hc), hsplit]
  rfl

theorem nil_mem_splitOn_iff (cs : List Char) :
    [] ∈ cs.splitOn '_' ↔
      cs = [] ∨ cs.head? = some '_' ∨ [] ∈ (cs.splitOn '_').tail := by
  cases cs with
  | nil => simp
  | cons c cs =>
    by_cases hc : c = '_'
    · subst hc
      simp [splitOn_underscore_cons]
    · obtain ⟨first, rest, hsplit⟩ := List.exists_cons_of_ne_nil (List.splitOn_ne_nil '_' cs)
      simp [List.splitOn_cons_eq_if_modifyHead, hc, hsplit]

theorem nil_mem_tail_splitOn_iff (cs : List Char) :
    [] ∈ (cs.splitOn '_').tail ↔ cs.getLast? = some '_' ∨ hasDouble cs = true := by
  induction cs with
  | nil => simp [hasDouble]
  | cons c cs ih =>
    by_cases hc : c = '_'
    · subst hc
      rw [splitOn_underscore_cons, List.tail_cons, nil_mem_splitOn_iff, ih]
      cases cs with
      | nil => simp
      | cons d ds => 
        by_cases hd : d = '_'
        · simp [hd, hasDouble]
        · simp [hd, hasDouble, List.getLast?_cons]
    · rw [tail_splitOn_cons hc, ih]
      cases cs with
      | nil => simp [hc, hasDouble]
      | cons d ds =>
        simp [hasDouble, hc, List.getLast?_cons]

/-- The checks of the underscores ask for groups that are not empty. -/
theorem ungrouped?_eq_some_iff (cs digits : List Char) :
    ungrouped? cs = some digits ↔ [] ∉ cs.splitOn '_' ∧ digits = cs.filter (· != '_') ∧
      ∀ c ∈ digits, c.isAlphanum = true := by
  have hchecks : [] ∈ cs.splitOn '_' ↔ (cs.isEmpty || cs.head? == some '_' ||
      cs.getLast? == some '_' || hasDouble cs) = true := by
    simp [nil_mem_splitOn_iff, nil_mem_tail_splitOn_iff, or_assoc]
  rw [hchecks, ungrouped?]
  generalize cs.filter (· != '_') = stripped
  split
  · next h => simp [h]
  · next h =>
    rw [Option.ite_none_right_eq_some, List.all_eq_true, Option.some.injEq]
    constructor
    · rintro ⟨hall, rfl⟩
      exact ⟨h, rfl, hall⟩
    · rintro ⟨-, rfl, hall⟩
      exact ⟨hall, rfl⟩

theorem grouped?_eq_some_iff_filter {radix n : Nat} {cs : List Char} :
    grouped? radix cs = some n ↔ [] ∉ cs.splitOn '_' ∧
      ∃ values, List.Forall₂ (IsDigit radix) (cs.filter (· != '_')) values ∧
        n = Nat.ofDigits radix values.reverse := by
  rw [grouped?, Option.bind_eq_some_iff]
  constructor
  · rintro ⟨digits, hdigits, hvalue⟩
    obtain ⟨hnone, rfl, -⟩ := (ungrouped?_eq_some_iff cs digits).mp hdigits
    exact ⟨hnone, positional?_eq_some_iff.mp hvalue⟩
  · rintro ⟨hnone, values, hvalues, rfl⟩
    have halphanum : ∀ c ∈ cs.filter (· != '_'), c.isAlphanum = true := by
      intro c hc
      obtain ⟨value, hvalue⟩ := exists_isDigit_of_mem hvalues hc
      exact isAlphanum_of_isDigit hvalue
    exact ⟨_, (ungrouped?_eq_some_iff _ _).mpr ⟨hnone, rfl, halphanum⟩,
      positional?_eq_some_iff.mpr ⟨values, hvalues, rfl⟩⟩

theorem grouped?_eq_some_iff {radix n : Nat} {cs : List Char} :
    grouped? radix cs = some n ↔ IsGrouped radix cs n := by
  rw [grouped?_eq_some_iff_filter]
  constructor
  · rintro ⟨hnone, values, hvalues, rfl⟩
    have hgroups : ∀ group ∈ cs.splitOn '_', group ≠ [] := by
      rintro group hgroup rfl
      exact hnone hgroup
    rw [← flatten_splitOn] at hvalues
    have hgrouped := IsGrouped.intro _ values (List.splitOn_ne_nil '_' cs) hgroups hvalues
    rwa [List.intercalate_splitOn] at hgrouped
  · rintro ⟨groups, values, hne, hgroups, hvalues⟩
    have hunderscore : ∀ group ∈ groups, '_' ∉ group := by
      intro group hgroup hmem
      obtain ⟨value, hvalue⟩ :=
        exists_isDigit_of_mem hvalues (List.mem_flatten_of_mem hgroup hmem)
      exact not_isDigit_underscore radix value hvalue
    rw [← flatten_splitOn, List.splitOn_intercalate '_' hunderscore hne]
    exact ⟨fun hmem => hgroups [] hmem rfl, values, hvalues, rfl⟩

theorem nil_mem_splitOn_cons (cs : List Char) : [] ∈ ('_' :: cs).splitOn '_' := by
  simp [splitOn_underscore_cons]

theorem filter_ne_nil {cs : List Char} (h : [] ∉ cs.splitOn '_') : cs.filter (· != '_') ≠ [] := by
  cases cs with
  | nil => simp at h
  | cons c cs =>
    by_cases hc : c = '_'
    · subst hc
      exact absurd (nil_mem_splitOn_cons cs) h
    · simp [hc]

theorem IsGrouped.eq_underscore_or_isDigit {radix n : Nat} {cs : List Char}
    (h : IsGrouped radix cs n) {c : Char} (hc : c ∈ cs) :
    c = '_' ∨ ∃ value, IsDigit radix c value := by
  obtain ⟨-, values, hvalues, -⟩ := grouped?_eq_some_iff_filter.mp (grouped?_eq_some_iff.mpr h)
  by_cases hunderscore : c = '_'
  · exact Or.inl hunderscore
  · exact Or.inr (exists_isDigit_of_mem hvalues (List.mem_filter.mpr ⟨hc, by simpa⟩))

theorem IsGrouped.nil_notMem_splitOn {radix n : Nat} {cs : List Char} (h : IsGrouped radix cs n) :
    [] ∉ cs.splitOn '_' :=
  (grouped?_eq_some_iff_filter.mp (grouped?_eq_some_iff.mpr h)).1

theorem IsGrouped.exists_head {radix n : Nat} {cs : List Char} (h : IsGrouped radix cs n) :
    ∃ c rest value, cs = c :: rest ∧ IsDigit radix c value := by
  cases cs with
  | nil => exact absurd (List.mem_singleton.mpr rfl) h.nil_notMem_splitOn
  | cons c rest =>
    rcases h.eq_underscore_or_isDigit List.mem_cons_self with rfl | ⟨value, hvalue⟩
    · exact absurd (nil_mem_splitOn_cons rest) h.nil_notMem_splitOn
    · exact ⟨c, rest, value, rfl, hvalue⟩

/-! ### The radix -/

theorem splitRadix_of_mark {mark : Char} {radix : Nat} (h : (mark, radix) ∈ marks)
    (cs : List Char) : splitRadix ('0' :: mark :: cs) = (radix, cs) := by
  simp only [marks, List.mem_cons, Prod.mk.injEq, List.not_mem_nil, or_false] at h
  rcases h with ⟨rfl, rfl⟩ | ⟨rfl, rfl⟩ | ⟨rfl, rfl⟩ | ⟨rfl, rfl⟩ | ⟨rfl, rfl⟩ | ⟨rfl, rfl⟩ |
    ⟨rfl, rfl⟩ | ⟨rfl, rfl⟩ <;> rfl

/-- Without a mark a leading zero means octal. -/
theorem splitRadix_of_no_mark {c : Char} (h : ∀ radix, (c, radix) ∉ marks) (cs : List Char) :
    splitRadix ('0' :: c :: cs) = (8, c :: cs) := by
  unfold splitRadix
  split <;> simp_all [marks]

theorem number_notMem_marks {c : Char} (h : '0' ≤ c ∧ c ≤ '9') (radix : Nat) :
    (c, radix) ∉ marks := by
  have hletter : ∀ m ∈ marks, ¬ ('0' ≤ m.1 ∧ m.1 ≤ '9') := by decide
  exact fun hmem => hletter _ hmem h

theorem splitRadix_of_spells {core rest : List Char} {radix : Nat} (h : Spells core radix rest) :
    splitRadix core = (radix, rest) := by
  cases h with
  | marked hmark => exact splitRadix_of_mark hmark rest
  | octal hc cs => exact splitRadix_of_no_mark hc cs
  | @decimal c hc cs =>
    have hzero : c ≠ '0' := by
      rintro rfl
      exact hc (by decide)
    exact splitRadix_of_head (by simpa using hzero)

theorem magnitude?_of_spells {core rest : List Char} {radix : Nat} (h : Spells core radix rest) :
    magnitude? core = grouped? radix rest := by
  rw [magnitude?, splitRadix_of_spells h]

theorem magnitude?_eq_some_iff {cs : List Char} {n : Nat} :
    magnitude? cs = some n ↔ IsMagnitude cs n := by
  constructor
  · intro h
    match cs, h with
    | [], h => cases h
    | first :: cs, h =>
      by_cases hfirst : first = '0'
      · subst hfirst
        match cs, h with
        | [], h =>
          obtain rfl : 0 = n := Option.some.inj h
          exact .zero
        | c :: cs, h =>
          by_cases hmark : ∃ radix, (c, radix) ∈ marks
          · obtain ⟨radix, hmark⟩ := hmark
            rw [magnitude?, splitRadix_of_mark hmark, grouped?_eq_some_iff] at h
            exact .marked hmark h
          · rw [magnitude?, splitRadix_of_no_mark (not_exists.mp hmark), grouped?_eq_some_iff] at h
            exact .octal h
      · rw [magnitude?, splitRadix_of_head (by simpa using hfirst), grouped?_eq_some_iff] at h
        obtain ⟨c, rest, value, hcs, hvalue⟩ := h.exists_head
        obtain ⟨rfl, rfl⟩ := List.cons.inj hcs
        have hnumber : 0x30 ≤ first.toNat ∧ first.toNat ≤ 0x39 :=
          number_of_isDigit (Nat.le_refl 10) hvalue
        have hzero : first.toNat ≠ 0x30 := fun hzero => hfirst (Char.toNat_inj.mp hzero)
        have hone : 0x31 ≤ first.toNat := by omega
        exact .decimal ⟨hone, hnumber.2⟩ h
  · intro h
    cases h with
    | marked hmark h => rw [magnitude?, splitRadix_of_mark hmark, grouped?_eq_some_iff.mpr h]
    | octal h =>
      obtain ⟨c, rest, value, rfl, hvalue⟩ := h.exists_head
      have hc := number_of_isDigit (by decide) hvalue
      rw [magnitude?, splitRadix_of_no_mark (number_notMem_marks hc), grouped?_eq_some_iff.mpr h]
    | zero => rfl
    | @decimal first cs n hfirst h =>
      have hzero : first ≠ '0' := by
        rintro rfl
        exact absurd hfirst.1 (by decide)
      rw [magnitude?, splitRadix_of_head (by simpa using hzero), grouped?_eq_some_iff.mpr h]

def IsUnsigned (cs : List Char) : Prop :=
  ∃ c rest, cs = c :: rest ∧ c ≠ '+' ∧ c ≠ '-'

theorem IsMagnitude.isUnsigned {cs : List Char} {n : Nat} (h : IsMagnitude cs n) :
    IsUnsigned cs := by
  cases h with
  | marked hmark h => exact ⟨'0', _, rfl, by decide⟩
  | octal h => exact ⟨'0', _, rfl, by decide⟩
  | zero => exact ⟨'0', [], rfl, by decide⟩
  | decimal hfirst h =>
    refine ⟨_, _, rfl, ?_, ?_⟩ <;> rintro rfl <;> exact absurd hfirst (by decide)

theorem exists_isMagnitude_of_map {cs : List Char} {f : Int → Int} {n : Int}
    (h : (magnitude? cs >>= fun k => pure (k : Int)).map f = some n) :
    ∃ k : Nat, IsMagnitude cs k ∧ f k = n := by
  obtain ⟨value, hvalue, rfl⟩ := Option.map_eq_some_iff.mp h
  obtain ⟨k, hk, hcast⟩ := Option.bind_eq_some_iff.mp hvalue
  obtain rfl := Option.some.inj hcast
  exact ⟨k, magnitude?_eq_some_iff.mp hk, rfl⟩

theorem read?_eq_some_iff {text : String} {n : Int} :
    read? text = some n ↔ IsNumeral text.toList n := by
  unfold read?
  generalize text.toList = cs
  constructor
  · intro h
    split at h
    · obtain ⟨k, hk, rfl⟩ := exists_isMagnitude_of_map h
      exact .minus hk
    · obtain ⟨k, hk, rfl⟩ := exists_isMagnitude_of_map h
      exact .plus hk
    · obtain ⟨k, hk, rfl⟩ := exists_isMagnitude_of_map h
      exact .unsigned hk
  · intro h
    cases h with
    | minus h | plus h =>
      simp only [magnitude?_eq_some_iff.mpr h]
      rfl
    | unsigned h =>
      obtain ⟨c, rest, rfl, hplus, hminus⟩ := h.isUnsigned
      split
      · next hcs => exact absurd (List.cons.inj hcs).1 hminus
      · next hcs => exact absurd (List.cons.inj hcs).1 hplus
      · rw [magnitude?_eq_some_iff.mpr h]
        rfl

/-! ### Characters -/

def IsNumeralChar (c : Char) : Prop :=
  (∃ value, digitValue? c = some value) ∨ c = '_' ∨ c = '-' ∨ c = '+'

theorem IsGrouped.digit_or_underscore {radix n : Nat} {cs : List Char} (h : IsGrouped radix cs n)
    {c : Char} (hc : c ∈ cs) : (∃ value, digitValue? c = some value) ∨ c = '_' := by
  rcases h.eq_underscore_or_isDigit hc with hunderscore | ⟨value, hvalue⟩
  · exact Or.inr hunderscore
  · exact Or.inl ⟨value, (digitValue?_eq_some_iff c value).mpr hvalue.2⟩

/-- The letters that name a radix are digits of a larger one. -/
theorem IsMagnitude.digit_or_underscore {cs : List Char} {n : Nat} (h : IsMagnitude cs n)
    {c : Char} (hc : c ∈ cs) : (∃ value, digitValue? c = some value) ∨ c = '_' := by
  cases h with
  | marked hmark h =>
    have hletter : ∀ m ∈ marks, (digitValue? m.1).isSome := by decide
    rcases List.mem_cons.mp hc with rfl | hc
    · exact Or.inl ⟨0, rfl⟩
    rcases List.mem_cons.mp hc with rfl | hc
    · exact Or.inl (Option.isSome_iff_exists.mp (hletter _ hmark))
    · exact h.digit_or_underscore hc
  | octal h =>
    rcases List.mem_cons.mp hc with rfl | hc
    · exact Or.inl ⟨0, rfl⟩
    · exact h.digit_or_underscore hc
  | zero =>
    obtain rfl := List.mem_singleton.mp hc
    exact Or.inl ⟨0, rfl⟩
  | decimal hfirst h => exact h.digit_or_underscore hc

theorem IsNumeral.isNumeralChar {cs : List Char} {n : Int} (h : IsNumeral cs n) {c : Char}
    (hc : c ∈ cs) : IsNumeralChar c := by
  cases h with
  | unsigned h => exact (h.digit_or_underscore hc).imp_right Or.inl
  | plus h =>
    rcases List.mem_cons.mp hc with rfl | hc
    · exact Or.inr (Or.inr (Or.inr rfl))
    · exact (h.digit_or_underscore hc).imp_right Or.inl
  | minus h =>
    rcases List.mem_cons.mp hc with rfl | hc
    · exact Or.inr (Or.inr (Or.inl rfl))
    · exact (h.digit_or_underscore hc).imp_right Or.inl

theorem numeralChar_of_read? {text : String} {n : Int} (h : read? text = some n) {c : Char}
    (hc : c ∈ text.toList) : IsNumeralChar c :=
  (read?_eq_some_iff.mp h).isNumeralChar hc

theorem toNat_lt_of_numeralChar {c : Char} (h : IsNumeralChar c) : c.toNat < 0x80 := by
  rcases h with ⟨value, hvalue⟩ | rfl | rfl | rfl
  · have hrange := toNat_of_digitValue? hvalue
    omega
  · decide
  · decide
  · decide

theorem isBlank_of_numeralChar {c : Char} (h : IsNumeralChar c) : isBlank c = false := by
  rcases h with ⟨value, hvalue⟩ | rfl | rfl | rfl
  · have hrange := toNat_of_digitValue? hvalue
    simp only [isBlank, CharRange.anyContains, blankRanges, List.any_cons, List.any_nil,
      CharRange.contains, Bool.or_false, Bool.or_eq_false_iff, Bool.and_eq_false_iff,
      decide_eq_false_iff_not]
    omega
  · decide
  · decide
  · decide

theorem isWord_of_read? {text : String} {n : Int} (h : read? text = some n) : IsWord text := by
  constructor
  · rintro rfl
    cases h
  · intro c hc
    exact isBlank_of_numeralChar (numeralChar_of_read? h hc)

/-! ### Numerals are no other words -/

theorem ne_name_of_read? {text : String} {n : Int} (h : read? text = some n) (b : Builtin) :
    text ≠ b.name := by
  rintro rfl
  cases b <;> cases h

theorem ne_colon_of_read? {text : String} {n : Int} (h : read? text = some n) (rest : String) :
    text ≠ ":" ++ rest := by
  rintro rfl
  have hcolon : IsNumeralChar ':' := numeralChar_of_read? h (by simp)
  rcases hcolon with ⟨value, hvalue⟩ | hc | hc | hc
  · cases hvalue
  all_goals exact absurd hc (by decide)

theorem isPlain_of_read? {text : String} {n : Int} (h : read? text = some n) :
    isPlain text = true := by
  rw [isPlain_iff]
  constructor <;> rintro rfl <;> cases h

/-! ### Misspelled texts -/

theorem IsNumeral.exists_isMagnitude {cs : List Char} {n : Int} (h : IsNumeral cs n) :
    ∃ sign ∈ signs, ∃ core k, cs = sign ++ core ∧ IsMagnitude core k := by
  cases h with
  | unsigned h => exact ⟨[], by decide, _, _, rfl, h⟩
  | plus h => exact ⟨['+'], by decide, _, _, rfl, h⟩
  | minus h => exact ⟨['-'], by decide, _, _, rfl, h⟩

theorem Spells.isUnsigned {core rest : List Char} {radix : Nat} (h : Spells core radix rest) :
    IsUnsigned core := by
  cases h with
  | marked hmark => exact ⟨'0', _, rfl, by decide⟩
  | octal hc cs => exact ⟨'0', _, rfl, by decide⟩
  | decimal hc cs =>
    refine ⟨_, cs, rfl, ?_, ?_⟩ <;> rintro rfl <;> exact hc (by decide)

theorem sign_append_inj {sign sign' core core' : List Char} (hsign : sign ∈ signs)
    (hsign' : sign' ∈ signs) (hcore : IsUnsigned core) (hcore' : IsUnsigned core')
    (h : sign ++ core = sign' ++ core') : core = core' := by
  obtain ⟨c, cs, rfl, hplus, hminus⟩ := hcore
  obtain ⟨c', cs', rfl, hplus', hminus'⟩ := hcore'
  simp only [signs, List.mem_cons, List.not_mem_nil, or_false] at hsign hsign'
  rcases hsign with rfl | rfl | rfl <;> rcases hsign' with rfl | rfl | rfl <;> grind

theorem IsNumeral.exists_isGrouped {sign core rest : List Char} {radix : Nat} {n : Int}
    (hsign : sign ∈ signs) (hcore : Spells core radix rest) (h : IsNumeral (sign ++ core) n) :
    ∃ k, IsGrouped radix rest k := by
  obtain ⟨sign', hsign', core', k, heq, hk⟩ := h.exists_isMagnitude
  obtain rfl := sign_append_inj hsign hsign' hcore.isUnsigned hk.isUnsigned heq
  have hmagnitude := magnitude?_eq_some_iff.mpr hk
  rw [magnitude?_of_spells hcore] at hmagnitude
  exact ⟨k, grouped?_eq_some_iff.mp hmagnitude⟩

theorem mem_of_mem_tail_sign_append {sign core : List Char} (hsign : sign ∈ signs) {c : Char}
    (hc : c ∈ (sign ++ core).tail) : c ∈ core := by
  simp only [signs, List.mem_cons, List.not_mem_nil, or_false] at hsign
  rcases hsign with rfl | rfl | rfl
  · exact List.mem_of_mem_tail hc
  · exact hc
  · exact hc

theorem nil_notMem_splitOn_cons {c : Char} {cs : List Char} (hc : c ≠ '_')
    (h : [] ∉ cs.splitOn '_') : [] ∉ (c :: cs).splitOn '_' := by
  obtain ⟨first, rest, hsplit⟩ := List.exists_cons_of_ne_nil (List.splitOn_ne_nil '_' cs)
  rw [hsplit, List.mem_cons, not_or] at h
  rw [List.splitOn_cons_eq_if_modifyHead, if_neg (by simpa using hc), hsplit]
  simpa using h.2

theorem IsMagnitude.nil_notMem_splitOn {cs : List Char} {n : Nat} (h : IsMagnitude cs n) :
    [] ∉ cs.splitOn '_' := by
  cases h with
  | marked hmark h =>
    have hletter : ∀ m ∈ marks, m.1 ≠ '_' := by decide
    have hmark' := nil_notMem_splitOn_cons (hletter _ hmark) h.nil_notMem_splitOn
    exact nil_notMem_splitOn_cons (by decide) hmark'
  | octal h => exact nil_notMem_splitOn_cons (by decide) h.nil_notMem_splitOn
  | zero => decide
  | decimal hfirst h => exact h.nil_notMem_splitOn

theorem IsNumeral.nil_notMem_splitOn {cs : List Char} {n : Int} (h : IsNumeral cs n) :
    [] ∉ cs.splitOn '_' := by
  cases h with
  | unsigned h => exact h.nil_notMem_splitOn
  | plus h | minus h => exact nil_notMem_splitOn_cons (by decide) h.nil_notMem_splitOn

theorem splitOn_append_underscore (before after : List Char) :
    (before ++ '_' :: after).splitOn '_' = before.splitOn '_' ++ after.splitOn '_' :=
  List.splitOnP_append_cons before after rfl

theorem Misspelled.not_isNumeral {cs : List Char} (h : Misspelled cs) (n : Int) :
    ¬ IsNumeral cs n := by
  intro hn
  cases h with
  | underscoreFirst hsign h =>
    obtain ⟨k, hk⟩ := hn.exists_isGrouped hsign h
    exact hk.nil_notMem_splitOn (nil_mem_splitOn_cons _)
  | underscoreLast before =>
    apply hn.nil_notMem_splitOn
    rw [splitOn_append_underscore]
    exact List.mem_append_right _ (List.mem_singleton.mpr rfl)
  | underscoreTwice before after =>
    apply hn.nil_notMem_splitOn
    rw [splitOn_append_underscore]
    exact List.mem_append_right _ (nil_mem_splitOn_cons after)
  | @signBehind c hc first before after =>
    obtain ⟨sign, hsign, core, k, heq, hk⟩ := hn.exists_isMagnitude
    have hmem : c ∈ core := by
      apply mem_of_mem_tail_sign_append hsign
      rw [← heq]
      exact List.mem_append_right before List.mem_cons_self
    have hno : digitValue? c = none ∧ c ≠ '_' := by rcases hc with rfl | rfl <;> decide
    rcases hk.digit_or_underscore hmem with ⟨value, hvalue⟩ | hunderscore
    · rw [hno.1] at hvalue
      cases hvalue
    · exact hno.2 hunderscore
  | notBelow hsign h hc hunderscore hdigit =>
    obtain ⟨k, hk⟩ := hn.exists_isGrouped hsign h
    rcases hk.eq_underscore_or_isDigit hc with hc | ⟨value, hvalue⟩
    · exact hunderscore hc
    · exact hdigit value hvalue
  | notAscii hc h =>
    have hlt := toNat_lt_of_numeralChar (hn.isNumeralChar hc)
    omega

/-- Reading a text yields an integer exactly if the grammar makes the text a numeral of that
integer. A text that is no numeral, such as a misspelled one, is not read. -/
theorem read_follows_grammar (text : String) :
    (∀ n, read? text = some n ↔ IsNumeral text.toList n) ∧
      (read? text = none ↔ ∀ n, ¬ IsNumeral text.toList n) ∧
      (Misspelled text.toList → read? text = none) := by
  have hnone : read? text = none ↔ ∀ n, ¬ IsNumeral text.toList n := by
    simp only [Option.eq_none_iff_forall_ne_some, ne_eq, read?_eq_some_iff]
  exact ⟨fun n => read?_eq_some_iff, hnone, fun h => hnone.mpr h.not_isNumeral⟩

example : ["-0x1f", "07_1", "0_71", "08", "+-1"].map read? =
    [some (-31), some 57, none, none, none] := by
  decide

end ColonForth.Numeral
