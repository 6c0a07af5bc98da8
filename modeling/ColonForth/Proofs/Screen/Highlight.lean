import ColonForth.Proofs.Alias.Chain
import ColonForth.Proofs.Text.Runs
import ColonForth.Proofs.Word.Folding
import ColonForth.Proofs.Word.Numeral
import ColonForth.Screen.Highlight

/-! The colour of a word says what all machines agree on. -/
namespace ColonForth
open Text

/-- Every machine takes the word for a builtin one. -/
def IsKeyword (word : String) : Prop :=
  ∀ m : Machine, ∃ b, m.meaning word = .builtin b

/-- Every machine takes the word for an integer if it has no entry for it. -/
def IsLiteral (word : String) : Prop :=
  ∀ m : Machine, m.dictionary.lookup? word = none → ∃ n, m.meaning word = .literal n

/-- What a colour says of a word. -/
def Colour.Suits (word : String) : Colour → Prop
  | .lightBlue => IsKeyword word
  | .darkGray => word = opener ∨ word = closer
  | .yellow => IsLiteral word
  | .white => ¬ IsKeyword word ∧ ¬ (word = opener ∨ word = closer) ∧ ¬ IsLiteral word

theorem isKeyword_iff (word : String) : IsKeyword word ↔ ∃ b : Builtin, word = b.name := by
  constructor
  · intro h
    obtain ⟨b, hb⟩ := h (.fresh 0)
    exact ⟨b, Machine.eq_name_of_meaning hb⟩
  · rintro ⟨b, rfl⟩ m
    exact ⟨b, m.meaning_name b⟩

theorem isLiteral_iff (word : String) : IsLiteral word ↔ ∃ n, Numeral.read? word = some n := by
  constructor
  · intro h
    -- On a machine without entries nothing but a numeral can mean an integer.
    let m : Machine := ⟨.empty, .empty, 0⟩
    obtain ⟨n, hn⟩ := h m (Dictionary.lookup?_empty word)
    have hname : ∀ b : Builtin, word ≠ b.name := by
      rintro b rfl
      rw [Machine.meaning_name] at hn
      cases hn
    have hfree : m.Unclaimed word := ⟨hname, Dictionary.lookup?_empty word⟩
    have hcolon : ∀ rest, word ≠ ":" ++ rest := by
      rintro rest rfl
      rw [Machine.meaning_of_colon hfree] at hn
      cases hn
    rw [Machine.meaning_of_no_colon hfree hcolon] at hn
    cases hread : Numeral.read? word with
    | some k => exact ⟨k, rfl⟩
    | none =>
      rw [hread] at hn
      cases hn
  · rintro ⟨n, hn⟩ m hentry
    refine ⟨n, ?_⟩
    rw [Machine.meaning_of_no_colon ⟨Numeral.ne_name_of_read? hn, hentry⟩
      (Numeral.ne_colon_of_read? hn), hn]
    rfl

theorem not_isWellDelimited_singleton (word : String) :
    ¬ IsWellDelimited [word] ↔ word = opener ∨ word = closer := by
  by_cases hopener : word = opener
  · subst hopener
    decide
  · by_cases hcloser : word = closer
    · subst hcloser
      decide
    · have hline : IsWellDelimited [word] := by
        left
        simp [Ne.symm hopener, Ne.symm hcloser]
      simp [hline, hopener, hcloser]

theorem IsKeyword.not_delimiter {word : String} (h : IsKeyword word) :
    ¬ (word = opener ∨ word = closer) := by
  obtain ⟨b, rfl⟩ := (isKeyword_iff word).mp h
  cases b <;> decide

theorem IsLiteral.not_isKeyword {word : String} (h : IsLiteral word) : ¬ IsKeyword word := by
  obtain ⟨n, hn⟩ := (isLiteral_iff word).mp h
  rw [isKeyword_iff]
  rintro ⟨b, hb⟩
  exact Numeral.ne_name_of_read? hn b hb

theorem IsLiteral.not_delimiter {word : String} (h : IsLiteral word) :
    ¬ (word = opener ∨ word = closer) := by
  obtain ⟨n, hn⟩ := (isLiteral_iff word).mp h
  rw [← isDelimiter_iff]
  simpa [isPlain] using Numeral.isPlain_of_read? hn

/-- A word is shown in a colour just if this suits it. -/
theorem Colour.ofWord_eq_iff (word : String) (colour : Colour) :
    ofWord word = colour ↔ colour.Suits word := by
  have hkeyword : (Builtin.ofName? word).isSome ↔ IsKeyword word := by
    simp [isKeyword_iff, Option.isSome_iff_exists, Builtin.ofName?_eq_some_iff]
  have hliteral : (Numeral.read? word).isSome ↔ IsLiteral word := by
    rw [isLiteral_iff, Option.isSome_iff_exists]
  simp only [ofWord, isDelimiter_iff]
  split
  · next h =>
    rw [hkeyword] at h
    have hliteral := mt IsLiteral.not_isKeyword (not_not.mpr h)
    cases colour <;> simp [Suits, h, h.not_delimiter, hliteral]
  next h =>
  rw [hkeyword] at h
  split
  · next h' =>
    have hliteral := mt IsLiteral.not_delimiter (not_not.mpr h')
    cases colour <;> simp [Suits, h, h', hliteral]
  next h' =>
  split
  · next h'' =>
    rw [hliteral] at h''
    cases colour <;> simp [Suits, h, h', h'']
  · next h'' =>
    rw [hliteral] at h''
    cases colour <;> simp [Suits, h, h', h'']

theorem Colour.ofRun_of_isGap {run : String} (h : IsGap run) : ofRun run = .white := by
  rw [ofRun, if_pos (by simpa using h.2)]

theorem Colour.ofRun_of_isWord {run : String} (h : IsWord run) : ofRun run = ofWord run := by
  have hall : ¬ run.toList.all isBlank = true := by
    intro hall
    exact IsGap.not_isWord ⟨h.1, by simpa using hall⟩ h
  rw [ofRun, if_neg hall]

/-- The coloured runs are the line, and no run is empty. Gaps and words take turns, and the words
are those that the line is split into. Gaps are white. The colour of a word is the one that suits
it: it tells whether all machines take the word for a builtin one, whether it is a delimiter, which
a line cannot hold alone, or whether all machines without an entry for it take it for an integer. -/
theorem highlight_agrees (line : String) :
    let texts := (highlight line).map Prod.snd
    String.join texts = line ∧
      (∀ text ∈ texts, IsGap text ∨ IsWord text) ∧
      texts.IsChain (fun text next => IsGap text ↔ IsWord next) ∧
      texts.filter (fun text => IsWord text) = words line ∧
      ∀ colour text, (colour, text) ∈ highlight line →
        (IsGap text → colour = .white) ∧
          (IsWord text → (∀ c, colour = c ↔ Colour.Suits text c) ∧
            (colour = .darkGray ↔ ¬ ∃ tokens, foldClause [text] = .ok tokens)) := by
  intro texts
  have htexts : texts = runs line := by
    simp [texts, highlight, Function.comp_def]
  rw [htexts]
  refine ⟨join_runs line, fun _ => isGap_or_isWord_of_mem_runs, isChain_runs_alternate line,
    filter_isWord_runs line, ?_⟩
  intro colour text hmem
  obtain ⟨run, -, hrun⟩ := List.mem_map.mp hmem
  obtain ⟨rfl, rfl⟩ := Prod.mk.inj hrun
  refine ⟨Colour.ofRun_of_isGap, fun hword => ?_⟩
  rw [Colour.ofRun_of_isWord hword, exists_foldClause_iff, not_isWellDelimited_singleton]
  exact ⟨Colour.ofWord_eq_iff run, Colour.ofWord_eq_iff run .darkGray⟩

end ColonForth
