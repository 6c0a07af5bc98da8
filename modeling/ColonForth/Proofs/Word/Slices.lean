import ColonForth.Proofs.Text.Slices
import ColonForth.Proofs.Word.Folding
import ColonForth.Proofs.Word.Numeral

/-! Words that are read by places: no slice fails or cuts a character apart. -/
namespace ColonForth
open Text Utf8

namespace Numeral

def smallLetter (byte : UInt8) : UInt8 :=
  if asciiByte 'A' ≤ byte ∧ byte ≤ asciiByte 'Z' then byte + 0x20 else byte

def radixOfByte? (byte : UInt8) : Option Nat :=
  if smallLetter byte = asciiByte 'x' then some 16
  else if smallLetter byte = asciiByte 'b' then some 2
  else if smallLetter byte = asciiByte 'o' then some 8
  else if smallLetter byte = asciiByte 'd' then some 10
  else none

/-- Whether the numeral has a minus sign, and what stands behind its sign. -/
def splitSign? (bytes : List UInt8) : Option (Bool × List UInt8) :=
  if bytes.head? = some (asciiByte '-') then
    (textSlice? bytes 1 bytes.length).map fun rest => (true, rest)
  else if bytes.head? = some (asciiByte '+') then
    (textSlice? bytes 1 bytes.length).map fun rest => (false, rest)
  else some (false, bytes)

def splitRadix? (bytes : List UInt8) : Option (Nat × List UInt8) :=
  if bytes.length < 2 then some (10, bytes)
  else
    bytes[0]?.bind fun first =>
      if first ≠ asciiByte '0' then some (10, bytes)
      else
        bytes[1]?.bind fun second =>
          match radixOfByte? second with
          | some radix => (textSlice? bytes 2 bytes.length).map fun rest => (radix, rest)
          | none => (textSlice? bytes 1 bytes.length).map fun rest => (8, rest)

def signed (negative : Bool) (n : Nat) : Int :=
  if negative then -(n : Int) else n

/-- A parser of digits without underscores, to be trusted with letters and numbers only. -/
structure ParsesDigits (parse : List UInt8 → Nat → Option Int) : Prop where
  of_values : ∀ {radix : Nat} {digits : List Char} {values : List Nat},
    2 ≤ radix → radix ≤ 36 → digits ≠ [] → List.Forall₂ (IsDigit radix) digits values →
      parse (encodeChars digits) radix = some (Nat.ofDigits radix values.reverse)
  of_no_values : ∀ {radix : Nat} {digits : List Char},
    2 ≤ radix → radix ≤ 36 → digits ≠ [] → (∀ c ∈ digits, c.isAlphanum = true) →
      (∀ values, ¬ List.Forall₂ (IsDigit radix) digits values) →
        parse (encodeChars digits) radix = none

/-- The integer of a numeral as it is read by bytes, or nothing if a slice fails or is no text. -/
def readBytesBy? (parse : List UInt8 → Nat → Option Int) (bytes : List UInt8) :
    Option (Option Int) :=
  (splitSign? bytes).bind fun sign =>
    (splitRadix? sign.2).bind fun radix =>
      (decode? radix.2).map fun text =>
        ((ungrouped? text.toList).bind fun digits => parse (encodeChars digits) radix.1).map
          fun n => if sign.1 then -n else n

def positionalBytes? (bytes : List UInt8) (radix : Nat) : Option Int :=
  (decode? bytes).bind fun text => (positional? radix text.toList).map Int.ofNat

def readBytes? (bytes : List UInt8) : Option (Option Int) :=
  readBytesBy? positionalBytes? bytes

/-! ### The first bytes of a numeral -/

theorem head?_encodeChars_cons {d : Char} (hd : d.toNat < 0x80) (c : Char) (cs : List Char) :
    (encodeChars (c :: cs)).head? = some (asciiByte d) ↔ c = d := by
  obtain ⟨byte, rest, hc, hbyte⟩ := exists_encodeChar_eq_cons c
  rw [encodeChars_cons, hc, List.cons_append, List.head?_cons, Option.some.injEq]
  rcases hbyte with ⟨hascii, rfl⟩ | ⟨hlarge, hfirst⟩
  · rw [← UInt8.toNat_inj, toNat_asciiByte hascii, toNat_asciiByte hd, Char.toNat_inj]
  · have hne : c ≠ d := by
      rintro rfl
      omega
    have hne' : byte ≠ asciiByte d := by
      rintro rfl
      rw [toNat_asciiByte hd] at hfirst
      omega
    exact iff_of_false hne' hne

theorem radixOfByte?_of_mark {mark : Char} {radix : Nat} (h : (mark, radix) ∈ marks) :
    ∃ byte, String.utf8EncodeChar mark = [byte] ∧ radixOfByte? byte = some radix := by
  simp only [marks, List.mem_cons, Prod.mk.injEq, List.not_mem_nil, or_false] at h
  rcases h with ⟨rfl, rfl⟩ | ⟨rfl, rfl⟩ | ⟨rfl, rfl⟩ | ⟨rfl, rfl⟩ | ⟨rfl, rfl⟩ | ⟨rfl, rfl⟩ |
    ⟨rfl, rfl⟩ | ⟨rfl, rfl⟩ <;> exact ⟨_, rfl, rfl⟩

theorem radixOfByte?_of_no_mark {c : Char} {byte : UInt8} {rest : List UInt8}
    (hc : ∀ radix, (c, radix) ∉ marks) (h : String.utf8EncodeChar c = byte :: rest) :
    radixOfByte? byte = none := by
  have hascii : ∀ n < 0x80, (∀ m ∈ marks, m.1 ≠ Char.ofNat n) →
      radixOfByte? (UInt8.ofNat n) = none := by decide
  have hlarge : ∀ n < 0x40, radixOfByte? (UInt8.ofNat (0xC0 + n)) = none := by decide
  obtain ⟨byte', rest', hc', hbyte⟩ := exists_encodeChar_eq_cons c
  obtain ⟨rfl, -⟩ := List.cons.inj (h.symm.trans hc')
  rcases hbyte with ⟨hlt, rfl⟩ | ⟨-, hfirst⟩
  · apply hascii _ hlt
    rintro ⟨mark, radix⟩ hmem heq
    rw [Char.ofNat_toNat] at heq
    exact hc radix (heq ▸ hmem)
  · have hlt : byte.toNat < 0x100 := byte.toNat_lt
    have hnone := hlarge (byte.toNat - 0xC0) (by omega)
    rwa [Nat.add_sub_cancel' hfirst, UInt8.ofNat_toNat] at hnone

/-! ### Numerals by their bytes -/

theorem splitSign?_eq_some (cs : List Char) :
    ∃ negative core, splitSign? (encodeChars cs) = some (negative, encodeChars core) ∧
      read? (String.ofList cs) = (magnitude? core).map (signed negative) := by
  match cs with
  | [] => exact ⟨false, [], rfl, rfl⟩
  | c :: cs =>
    have hminus := head?_encodeChars_cons (d := '-') (by decide) c cs
    have hplus := head?_encodeChars_cons (d := '+') (by decide) c cs
    by_cases hc : c = '-'
    · subst hc
      refine ⟨true, cs, ?_, ?_⟩
      · rw [splitSign?, if_pos (hminus.mpr rfl)]
        exact congrArg (Option.map fun rest => (true, rest)) (textSlice?_behind ['-'] cs)
      · cases h : magnitude? cs <;> simp [read?, h, signed]
    by_cases hc' : c = '+'
    · subst hc'
      refine ⟨false, cs, ?_, ?_⟩
      · rw [splitSign?, if_neg (mt hminus.mp hc), if_pos (hplus.mpr rfl)]
        exact congrArg (Option.map fun rest => (false, rest)) (textSlice?_behind ['+'] cs)
      · cases h : magnitude? cs <;> simp [read?, h, signed]
    · refine ⟨false, c :: cs, ?_, ?_⟩
      · rw [splitSign?, if_neg (mt hminus.mp hc), if_neg (mt hplus.mp hc')]
      · cases h : magnitude? (c :: cs) <;> simp [read?, hc, hc', h, signed]

/-- Behind a leading zero the next byte decides. -/
theorem splitRadix?_of_zero {d : Char} {byte : UInt8} {rest : List UInt8}
    (hd : String.utf8EncodeChar d = byte :: rest) (ds : List Char) :
    splitRadix? (encodeChars ('0' :: d :: ds)) =
      match radixOfByte? byte with
      | some radix =>
        (textSlice? (encodeChars ('0' :: d :: ds)) 2 (encodeChars ('0' :: d :: ds)).length).map
          fun rest => (radix, rest)
      | none =>
        (textSlice? (encodeChars ('0' :: d :: ds)) 1 (encodeChars ('0' :: d :: ds)).length).map
          fun rest => (8, rest) := by
  have hbytes : encodeChars ('0' :: d :: ds) =
      asciiByte '0' :: byte :: (rest ++ encodeChars ds) := by
    rw [encodeChars_cons, encodeChars_cons, hd]
    rfl
  have hlength : ¬ (encodeChars ('0' :: d :: ds)).length < 2 := by simp [hbytes]
  have hfirst : (encodeChars ('0' :: d :: ds))[0]? = some (asciiByte '0') := by simp [hbytes]
  have hsecond : (encodeChars ('0' :: d :: ds))[1]? = some byte := by simp [hbytes]
  rw [splitRadix?, if_neg hlength, hfirst, Option.bind_some, if_neg (not_not.mpr rfl), hsecond,
    Option.bind_some]

theorem splitRadix?_of_not_zero {bytes : List UInt8} (h : bytes.head? ≠ some (asciiByte '0')) :
    splitRadix? bytes = some (10, bytes) := by
  unfold splitRadix?
  split
  · rfl
  · next hlength =>
    obtain ⟨first, rest, rfl⟩ := List.exists_cons_of_length_pos (show 0 < bytes.length by omega)
    have hfirst : first ≠ asciiByte '0' := by simpa using h
    simp [hfirst]

theorem splitRadix?_eq_some (cs : List Char) :
    splitRadix? (encodeChars cs) = some ((splitRadix cs).1, encodeChars (splitRadix cs).2) := by
  match cs with
  | [] => rfl
  | c :: cs =>
    by_cases hc : c = '0'
    · subst hc
      cases cs with
      | nil => rfl
      | cons d ds =>
        by_cases hmark : ∃ radix, (d, radix) ∈ marks
        · obtain ⟨radix, hmark⟩ := hmark
          obtain ⟨byte, hd, hradix⟩ := radixOfByte?_of_mark hmark
          have hslice := textSlice?_behind ['0', d] ds
          have hlength : (encodeChars ['0', d]).length = 2 := by
            rw [encodeChars_cons, encodeChars_singleton, hd]
            rfl
          rw [hlength, ← encodeChars_append] at hslice
          rw [splitRadix?_of_zero hd, hradix, splitRadix_of_mark hmark]
          exact congrArg (Option.map fun rest => (radix, rest)) hslice
        · -- What stands behind the zero may be longer than a byte, but it is not cut into.
          have hmark := not_exists.mp hmark
          obtain ⟨byte, rest, hd, -⟩ := exists_encodeChar_eq_cons d
          rw [splitRadix?_of_zero hd, radixOfByte?_of_no_mark hmark hd,
            splitRadix_of_no_mark hmark]
          exact congrArg (Option.map fun rest => (8, rest)) (textSlice?_behind ['0'] (d :: ds))
    · have hfirst := head?_encodeChars_cons (d := '0') (by decide) c cs
      rw [splitRadix?_of_not_zero (mt hfirst.mp hc), splitRadix_of_head (by simpa using hc)]

theorem radix_splitRadix (cs : List Char) : 2 ≤ (splitRadix cs).1 ∧ (splitRadix cs).1 ≤ 36 := by
  unfold splitRadix
  split <;> simp

theorem parsesDigits_positionalBytes? : ParsesDigits positionalBytes? where
  of_values := by
    intro radix digits values _ _ _ hvalues
    have hvalue := positional?_eq_some_iff.mpr ⟨values, hvalues, rfl⟩
    simp [positionalBytes?, ← encode_ofList, decode?_encode, hvalue]
  of_no_values := by
    intro radix digits _ _ _ _ hnone
    have hvalue : positional? radix digits = none := by
      rw [Option.eq_none_iff_forall_ne_some]
      intro n hn
      obtain ⟨values, hvalues, -⟩ := positional?_eq_some_iff.mp hn
      exact hnone values hvalues
    simp [positionalBytes?, ← encode_ofList, decode?_encode, hvalue]

variable {parse : List UInt8 → Nat → Option Int}

/-- The checks let a parser see nothing but what it is to be trusted with. -/
theorem ParsesDigits.bind_ungrouped? (hparse : ParsesDigits parse) {radix : Nat}
    (hradix : 2 ≤ radix ∧ radix ≤ 36) (cs : List Char) :
    ((ungrouped? cs).bind fun digits => parse (encodeChars digits) radix) =
      (grouped? radix cs).map Int.ofNat := by
  rw [grouped?]
  cases hungrouped : ungrouped? cs with
  | none => rfl
  | some digits =>
    obtain ⟨hgroups, hdigits, halphanum⟩ := (ungrouped?_eq_some_iff cs digits).mp hungrouped
    have hne : digits ≠ [] := hdigits ▸ filter_ne_nil hgroups
    rw [Option.bind_some, Option.bind_some]
    cases hvalue : positional? radix digits with
    | some n =>
      obtain ⟨values, hvalues, rfl⟩ := positional?_eq_some_iff.mp hvalue
      exact hparse.of_values hradix.1 hradix.2 hne hvalues
    | none =>
      apply hparse.of_no_values hradix.1 hradix.2 hne halphanum
      intro values hvalues
      rw [positional?_eq_some_iff.mpr ⟨values, hvalues, rfl⟩] at hvalue
      cases hvalue

theorem readBytesBy?_eq_some (hparse : ParsesDigits parse) (text : String) :
    readBytesBy? parse (encode text) = some (read? text) := by
  obtain ⟨negative, core, hsign, hread⟩ := splitSign?_eq_some text.toList
  have hdigits := hparse.bind_ungrouped? (radix_splitRadix core) (splitRadix core).2
  rw [String.ofList_toList] at hread
  rw [readBytesBy?, encode_eq, hsign, Option.bind_some, splitRadix?_eq_some, Option.bind_some,
    ← encode_ofList (splitRadix core).2, decode?_encode, hread, Option.map_some,
    String.toList_ofList, magnitude?, hdigits, Option.map_map]
  rfl

theorem readBytes?_eq_some (text : String) : readBytes? (encode text) = some (read? text) :=
  readBytesBy?_eq_some parsesDigits_positionalBytes? text

end Numeral

/-! ### Lines by the places of their delimiters -/

/-- The tokens of a line whose clause is cut out at the places of its delimiters, or nothing if a
slice or a difference fails. The second difference is the number of tokens to make room for. -/
def foldClause? (tokens : List String) : Option (Except Error (List String)) :=
  match tokens.idxsOf opener, tokens.idxsOf closer with
  | [], [] => some (.ok tokens)
  | [first], [last] =>
    if first ≤ last then do
      let span ← minus? last first
      let _ ← minus? tokens.length span
      let before ← slice? tokens 0 first
      let clause ← slice? tokens first (last + 1)
      let after ← slice? tokens (last + 1) tokens.length
      return .ok (before ++ joinWords clause :: after)
    else some (.error (.malformedDefinition (joinWords tokens)))
  | _, _ => some (.error (.malformedDefinition (joinWords tokens)))

theorem idxsOf_eq_nil {tokens : List String} {d : String} (h : d ∉ tokens) (start : Nat) :
    tokens.idxsOf d start = [] := by
  rw [List.idxsOf_eq_nil_iff]
  intro t ht
  rw [beq_eq_false_iff_ne]
  rintro rfl
  exact h ht

theorem count_and_idxOf {tokens : List String} {d : String} {place : Nat}
    (h : tokens.idxsOf d = [place]) : tokens.count d = 1 ∧ tokens.idxOf d = place := by
  have hlength : (tokens.idxsOf d).length = 1 := by rw [h, List.length_singleton]
  have hfirst := List.getElem_zero_idxsOf_eq_idxOf (hlength ▸ Nat.zero_lt_one)
  refine ⟨by rwa [List.length_idxsOf] at hlength, ?_⟩
  rw [← hfirst]
  simp [h]

theorem isWellDelimited_of_places {tokens : List String} {first last : Nat}
    (hopener : tokens.idxsOf opener = [first]) (hcloser : tokens.idxsOf closer = [last])
    (hle : first ≤ last) : IsWellDelimited tokens := by
  obtain ⟨hcount, rfl⟩ := count_and_idxOf hopener
  obtain ⟨hcount', rfl⟩ := count_and_idxOf hcloser
  have hmem : opener ∈ tokens := List.count_pos_iff.mp (by omega)
  have hne : tokens.idxOf opener ≠ tokens.idxOf closer := by
    rw [Ne, List.idxOf_inj hmem]
    decide
  exact Or.inr ⟨hcount, hcount', Nat.lt_of_le_of_ne hle hne⟩

theorem places_of_clause {before inner after : List String}
    (hbefore : ∀ t ∈ before, isPlain t = true) (hinner : ∀ t ∈ inner, isPlain t = true)
    (hafter : ∀ t ∈ after, isPlain t = true) :
    (before ++ opener :: (inner ++ closer :: after)).idxsOf opener = [before.length] ∧
      (before ++ opener :: (inner ++ closer :: after)).idxsOf closer =
        [before.length + 1 + inner.length] := by
  have hne : (opener == closer) = false := by decide
  have hne' : (closer == opener) = false := by decide
  obtain ⟨hopener, hcloser⟩ := (forall_isPlain_iff_notMem _).mp hbefore
  obtain ⟨hopener', hcloser'⟩ := (forall_isPlain_iff_notMem _).mp hinner
  obtain ⟨hopener'', hcloser''⟩ := (forall_isPlain_iff_notMem _).mp hafter
  constructor
  · simp [idxsOf_eq_nil hopener, idxsOf_eq_nil hopener', idxsOf_eq_nil hopener'', hne']
  · simp [idxsOf_eq_nil hcloser, idxsOf_eq_nil hcloser', idxsOf_eq_nil hcloser'', hne]

theorem foldClause?_of_clause {before inner after : List String}
    (hbefore : ∀ t ∈ before, isPlain t = true) (hinner : ∀ t ∈ inner, isPlain t = true)
    (hafter : ∀ t ∈ after, isPlain t = true) :
    foldClause? (before ++ opener :: (inner ++ closer :: after)) =
      some (.ok (before ++ clauseToken inner :: after)) := by
  obtain ⟨hopener, hcloser⟩ := places_of_clause hbefore hinner hafter
  let span := opener :: inner ++ [closer]
  have hline : before ++ opener :: (inner ++ closer :: after) = before ++ (span ++ after) := by
    simp [span]
  have hend : before.length + 1 + inner.length + 1 = before.length + span.length := by
    simp only [span, List.length_append, List.length_cons, List.length_nil]
    omega
  have hle : before.length ≤ before.length + 1 + inner.length := by omega
  have hroom : before.length + 1 + inner.length - before.length ≤
      (before ++ (span ++ after)).length := by
    simp only [span, List.length_append, List.length_cons, List.length_nil]
    omega
  have hbehind := slice?_behind (before ++ span) after
  rw [List.length_append, List.append_assoc] at hbehind
  rw [foldClause?, hopener, hcloser, hline]
  simp only [if_pos hle, minus?_eq_some hle, minus?_eq_some hroom, slice?_front, hend,
    slice?_append, hbehind, Option.bind_eq_bind, Option.bind_some]
  rfl

theorem foldClause?_eq_some (tokens : List String) :
    foldClause? tokens = some (foldClause tokens) := by
  cases hfold : foldClause tokens with
  | ok folded =>
    cases (foldClause_eq_ok_iff tokens folded).mp hfold with
    | plain hplain =>
      obtain ⟨hopener, hcloser⟩ := (forall_isPlain_iff_notMem tokens).mp hplain
      rw [foldClause?, idxsOf_eq_nil hopener, idxsOf_eq_nil hcloser]
    | clause hbefore hinner hafter => exact foldClause?_of_clause hbefore hinner hafter
  | error e =>
    have hnot : ¬ IsWellDelimited tokens := by
      intro h
      obtain ⟨folded, hok⟩ := (exists_foldClause_iff tokens).mpr h
      rw [hfold] at hok
      cases hok
    obtain rfl := foldClause_of_error hfold
    -- Delimiters at the places that are not rejected would make the line well delimited.
    unfold foldClause?
    split
    · next hopener hcloser =>
      rw [List.idxsOf_eq_nil_iff] at hopener hcloser
      refine absurd (Or.inl ⟨fun hmem => ?_, fun hmem => ?_⟩) hnot
      · simpa using hopener opener hmem
      · simpa using hcloser closer hmem
    · next hopener hcloser =>
      rw [if_neg fun hle => hnot (isWellDelimited_of_places hopener hcloser hle)]
    · rfl

/-! ### Clauses by the places of their words -/

/-- The place behind the body: a `;` at the end does not belong to it. -/
def bodyEnd? (parts : List String) : Option Nat :=
  if parts.getLast? = some closer then minus? parts.length 1 else some parts.length

/-- The name and the body that are cut out of the words of a clause, or nothing if a slice or a
difference fails. -/
def Definition.ofParts? (clause : String) (parts : List String) :
    Option (Except Error Definition) :=
  if parts.head? = some opener then
    (bodyEnd? parts).bind fun bodyEnd =>
      match parts[1]? with
      | some name =>
        if 2 ≤ bodyEnd then
          (slice? parts 2 bodyEnd).map fun body => .ok ⟨name, joinWords body⟩
        else some (.error (.malformedDefinition clause))
      | none => some (.error (.malformedDefinition clause))
  else some (.error (.malformedDefinition clause))

def Definition.ofClause? (clause : String) : Option (Except Error Definition) :=
  ofParts? clause (words clause)

theorem dropCloser_prefix (rest : List String) : dropCloser rest <+: rest := by
  unfold dropCloser
  split
  · exact List.dropLast_prefix rest
  · exact List.prefix_refl rest

theorem bodyEnd?_cons (rest : List String) :
    bodyEnd? (opener :: rest) = some ((dropCloser rest).length + 1) := by
  rcases List.eq_nil_or_concat rest with rfl | ⟨inner, last, rfl⟩
  · rfl
  · have hlast : (opener :: inner ++ [last]).getLast? = some last := List.getLast?_concat
    rw [List.cons_append] at hlast
    by_cases hcloser : last = closer
    · subst hcloser
      simp [bodyEnd?, dropCloser, hlast, minus?]
    · simp [bodyEnd?, dropCloser, hlast, hcloser]

theorem Definition.ofParts?_eq_some (clause : String) (parts : List String) :
    ofParts? clause parts =
      some (match ofWords? parts with
        | some d => .ok d
        | none => .error (.malformedDefinition clause)) := by
  cases parts with
  | nil => rfl
  | cons first rest =>
    by_cases hfirst : first = opener
    · subst hfirst
      obtain ⟨tail, hrest⟩ := dropCloser_prefix rest
      rw [ofParts?, if_pos List.head?_cons, bodyEnd?_cons, Option.bind_some, ofWords?]
      cases hinner : dropCloser rest with
      | nil => cases rest <;> simp
      | cons name body =>
        have hslice : slice? (opener :: name :: (body ++ tail)) 2 (2 + body.length) = some body :=
          slice?_append [opener, name] body tail
        have hend : (name :: body).length + 1 = 2 + body.length := by
          rw [List.length_cons]
          omega
        rw [← hrest, hinner, hend]
        simp [hslice]
    · rw [ofParts?, if_neg (by simpa using hfirst), ofWords?]
      cases dropCloser rest with
      | nil => rfl
      | cons name body => simp [hfirst]

theorem Definition.ofClause?_eq_some (clause : String) :
    ofClause? clause = some (ofClause clause) :=
  ofParts?_eq_some clause (words clause)

/-- No slice and no difference fails, whatever the text, the line or the clause is, and what is read
from the slices is what is read without them. -/
theorem no_slice_fails :
    (∀ text, Numeral.readBytes? (encode text) = some (Numeral.read? text)) ∧
      (∀ text : String, Numeral.splitRadix? (encode text) =
        some ((Numeral.splitRadix text.toList).1,
          encode (String.ofList (Numeral.splitRadix text.toList).2))) ∧
      (∀ line, runs? line =
        some ((runs line).map fun run => (run.toList.all isBlank, encode run))) ∧
      (∀ tokens, foldClause? tokens = some (foldClause tokens)) ∧
      ∀ clause, Definition.ofClause? clause = some (Definition.ofClause clause) := by
  refine ⟨Numeral.readBytes?_eq_some, ?_, runs?_eq_some, foldClause?_eq_some,
    Definition.ofClause?_eq_some⟩
  intro text
  rw [encode_ofList]
  exact Numeral.splitRadix?_eq_some text.toList

end ColonForth
