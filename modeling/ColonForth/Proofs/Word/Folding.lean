import ColonForth.Proofs.Word.Clause
import Mathlib.Data.List.Basic

/-! Lines that are folded into tokens, and clauses that are read from them. -/
namespace ColonForth
open Text

/-- No delimiter, or one `:` and behind it one `;`. -/
def IsWellDelimited (line : List String) : Prop :=
  (opener ∉ line ∧ closer ∉ line) ∨
    (line.count opener = 1 ∧ line.count closer = 1 ∧ line.idxOf opener < line.idxOf closer)

instance (line : List String) : Decidable (IsWellDelimited line) :=
  inferInstanceAs (Decidable (_ ∨ _))

/-- `ws` are the words of a clause around `inner`. The `;` at the end may be left out unless `inner`
ends with another one. -/
inductive Encloses : List String → List String → Prop
  | closed (inner : List String) : Encloses (opener :: (inner ++ [closer])) inner
  | unclosed (inner : List String) (h : inner.getLast? ≠ some closer) :
      Encloses (opener :: inner) inner

/-! ### Joined words -/

theorem Text.joinWords_joined (before : List String) {span : List String} (h : span ≠ [])
    (after : List String) :
    joinWords (before ++ joinWords span :: after) = joinWords (before ++ (span ++ after)) := by
  have hafter : joinWords (joinWords span :: after) = joinWords (span ++ after) := by
    cases after with
    | nil => simp
    | cons a after =>
      have hne := List.cons_ne_nil a after
      rw [joinWords_cons _ hne, joinWords_append h hne]
  cases before with
  | nil => simpa using hafter
  | cons b before =>
    have hne := List.cons_ne_nil b before
    rw [joinWords_append hne (List.cons_ne_nil _ after), hafter,
      joinWords_append hne (by simp [h])]

/-! ### Lines with delimiters -/

theorem forall_isPlain_iff_notMem (tokens : List String) :
    (∀ t ∈ tokens, isPlain t = true) ↔ opener ∉ tokens ∧ closer ∉ tokens := by
  constructor
  · intro h
    exact ⟨fun hmem => absurd (h opener hmem) (by decide),
      fun hmem => absurd (h closer hmem) (by decide)⟩
  · intro h t ht
    rw [isPlain_iff]
    exact ⟨fun heq => h.1 (heq ▸ ht), fun heq => h.2 (heq ▸ ht)⟩

theorem FoldsTo.isWellDelimited {line tokens : List String} (h : FoldsTo line tokens) :
    IsWellDelimited line := by
  cases h with
  | plain hplain => exact Or.inl ((forall_isPlain_iff_notMem line).mp hplain)
  | clause hbefore hinner hafter =>
    obtain ⟨hopener, hcloser⟩ := (forall_isPlain_iff_notMem _).mp hbefore
    refine Or.inr ⟨?_, ?_, ?_⟩
    · exact count_eq_one_of_plain (by decide) hbefore hinner hafter
    · exact count_eq_one_of_plain (by decide) hbefore hinner hafter
    · rw [List.idxOf_append_of_notMem hopener, List.idxOf_append_of_notMem hcloser,
        List.idxOf_cons_self, List.idxOf_cons_ne _ (by decide)]
      omega

theorem exists_clause_of_idxOf_lt {line : List String} (hopener : line.count opener = 1)
    (hcloser : line.count closer = 1) (hlt : line.idxOf opener < line.idxOf closer) :
    ∃ before inner after, line = before ++ opener :: (inner ++ closer :: after) := by
  have hmem : opener ∈ line := List.count_pos_iff.mp (by omega)
  obtain ⟨before, rest, rfl, hbefore⟩ := List.eq_append_cons_of_mem hmem
  have hcloserBefore : closer ∉ before := by
    intro h
    have hidx := List.idxOf_lt_length_of_mem h
    rw [List.idxOf_append_of_mem h, List.idxOf_append_of_notMem hbefore] at hlt
    omega
  have hcloserMem : closer ∈ before ++ opener :: rest := List.count_pos_iff.mp (by omega)
  have hcloserRest : closer ∈ rest := by
    simpa [hcloserBefore, show closer ≠ opener by decide] using hcloserMem
  obtain ⟨inner, after, rfl, -⟩ := List.eq_append_cons_of_mem hcloserRest
  exact ⟨before, inner, after, rfl⟩

/-- Just the lines that are well delimited are accepted. -/
theorem exists_foldClause_iff (line : List String) :
    (∃ tokens, foldClause line = .ok tokens) ↔ IsWellDelimited line := by
  simp only [foldClause_eq_ok_iff]
  constructor
  · rintro ⟨tokens, h⟩
    exact h.isWellDelimited
  · rintro (hplain | ⟨hopener, hcloser, hlt⟩)
    · exact ⟨line, .plain ((forall_isPlain_iff_notMem line).mpr hplain)⟩
    · obtain ⟨before, inner, after, rfl⟩ := exists_clause_of_idxOf_lt hopener hcloser hlt
      obtain ⟨hbefore, hinner, hafter⟩ := plain_of_count_le fun d hd => by
        rcases (not_isPlain_iff d).mp hd with rfl | rfl
        · exact hopener.le
        · exact hcloser.le
      exact ⟨_, .clause hbefore hinner hafter⟩

/-! ### What lines are folded into -/

theorem isPlain_clauseToken (inner : List String) : isPlain (clauseToken inner) = true := by
  rw [isPlain_iff]
  constructor <;> intro heq
  · exact not_isWord_clauseToken inner (heq ▸ isWord_opener)
  · exact not_isWord_clauseToken inner (heq ▸ isWord_closer)

namespace FoldsTo

variable {line tokens : List String}

theorem forall_isPlain (h : FoldsTo line tokens) : ∀ t ∈ tokens, isPlain t = true := by
  cases h with
  | plain hplain => exact hplain
  | @clause before inner after hbefore hinner hafter =>
    exact List.forall_mem_append.mpr
      ⟨hbefore, List.forall_mem_cons.mpr ⟨isPlain_clauseToken inner, hafter⟩⟩

theorem joinWords_eq (h : FoldsTo line tokens) : joinWords tokens = joinWords line := by
  cases h with
  | plain => rfl
  | @clause before inner after =>
    rw [clauseToken, joinWords_joined before (by simp) after]
    simp

/-- The tokens are those of the line, but for one that is joined from the words of its clause. -/
theorem eq_or_exists_span (h : FoldsTo line tokens) :
    opener ∉ line ∧ closer ∉ line ∧ tokens = line ∨
      ∃ before inner after, line = before ++ (opener :: inner ++ [closer]) ++ after ∧
        tokens = before ++ [joinWords (opener :: inner ++ [closer])] ++ after := by
  cases h with
  | plain hplain =>
    obtain ⟨hopener, hcloser⟩ := (forall_isPlain_iff_notMem line).mp hplain
    exact Or.inl ⟨hopener, hcloser, rfl⟩
  | @clause before inner after =>
    exact Or.inr ⟨before, inner, after, by simp, by simp [clauseToken]⟩

end FoldsTo

/-- Just the lines that are well delimited are accepted, and an error names the whole line. What is
accepted keeps its words, but for those from `:` to `;`, which become one token: so its text is the
same, it has no delimiter left, it is not folded any further, and its text has the words of the line
if these were words at all. -/
theorem foldClause_accepts (line : List String) :
    ((∃ tokens, foldClause line = .ok tokens) ↔ IsWellDelimited line) ∧
      (¬ IsWellDelimited line →
        foldClause line = .error (.malformedDefinition (joinWords line))) ∧
      ∀ tokens, foldClause line = .ok tokens →
        (opener ∉ line ∧ closer ∉ line ∧ tokens = line ∨
          ∃ before inner after, line = before ++ (opener :: inner ++ [closer]) ++ after ∧
            tokens = before ++ [joinWords (opener :: inner ++ [closer])] ++ after) ∧
        joinWords tokens = joinWords line ∧ opener ∉ tokens ∧ closer ∉ tokens ∧
        foldClause tokens = .ok tokens ∧
        ∀ text, words text = line → words (joinWords tokens) = line := by
  refine ⟨exists_foldClause_iff line, ?_, ?_⟩
  · intro hline
    cases hfold : foldClause line with
    | ok tokens => exact absurd ((exists_foldClause_iff line).mp ⟨tokens, hfold⟩) hline
    | error e => rw [foldClause_of_error hfold]
  · intro tokens hfold
    have hfolds := (foldClause_eq_ok_iff line tokens).mp hfold
    obtain ⟨hopener, hcloser⟩ := (forall_isPlain_iff_notMem tokens).mp hfolds.forall_isPlain
    refine ⟨hfolds.eq_or_exists_span, hfolds.joinWords_eq, hopener, hcloser,
      foldClause_of_plain hfolds.forall_isPlain, ?_⟩
    rintro text rfl
    rw [hfolds.joinWords_eq, words_joinWords fun w hw => isWord_of_mem_words hw]

/-! ### Clauses that are read -/

theorem encloses_iff (ws inner : List String) :
    Encloses ws inner ↔ ∃ rest, ws = opener :: rest ∧ dropCloser rest = inner := by
  constructor
  · rintro (_ | ⟨_, h⟩)
    · exact ⟨_, rfl, by simp [dropCloser]⟩
    · exact ⟨inner, rfl, if_neg h⟩
  · rintro ⟨rest, rfl, rfl⟩
    unfold dropCloser
    split
    · next h =>
      obtain ⟨inner, rfl⟩ := List.getLast?_eq_some_iff.mp h
      rw [List.dropLast_concat]
      exact .closed inner
    · next h => exact .unclosed rest h

theorem Definition.ofWords?_eq_some_iff (ws : List String) (d : Definition) :
    ofWords? ws = some d ↔ ∃ body, Encloses ws (d.name :: body) ∧ d.body = joinWords body := by
  simp only [encloses_iff]
  unfold ofWords?
  split
  · simp
  · next first rest =>
    constructor
    · intro h
      split at h
      · cases h
      · next name body hinner =>
        split at h
        · next hfirst =>
          obtain rfl := Option.some.inj h
          exact ⟨body, ⟨rest, by rw [hfirst], hinner⟩, rfl⟩
        · cases h
    · rintro ⟨body, ⟨rest', hws, hinner⟩, hbody⟩
      obtain ⟨rfl, rfl⟩ := List.cons.inj hws
      simp [hinner, ← hbody]

theorem Definition.ofClause_eq_ok_iff (clause : String) (d : Definition) :
    ofClause clause = .ok d ↔
      ∃ body, Encloses (words clause) (d.name :: body) ∧ d.body = joinWords body := by
  rw [← ofWords?_eq_some_iff, ofClause]
  cases ofWords? (words clause) with
  | none => simp
  | some found => simp

theorem Definition.exists_ofClause_iff (clause : String) :
    (∃ d, ofClause clause = .ok d) ↔ ∃ inner, Encloses (words clause) inner ∧ inner ≠ [] := by
  simp only [ofClause_eq_ok_iff]
  constructor
  · rintro ⟨d, body, hencloses, -⟩
    exact ⟨d.name :: body, hencloses, List.cons_ne_nil d.name body⟩
  · rintro ⟨inner, hencloses, hne⟩
    obtain ⟨name, body, rfl⟩ := List.exists_cons_of_ne_nil hne
    exact ⟨⟨name, joinWords body⟩, body, hencloses, rfl⟩

theorem Encloses.opener_mem {ws inner : List String} (h : Encloses ws inner) : opener ∈ ws := by
  cases h <;> exact List.mem_cons_self

theorem Encloses.subset {ws inner : List String} (h : Encloses ws inner) : inner ⊆ ws := by
  cases h with
  | closed => simp
  | unclosed => simp

/-- What is folded is read back: a clause has the name and the body that it was joined from,
whatever words these are, and the clause of a line those that the line has, however it is spaced. Of
other texts just those are read that begin with `:` and go on behind it, up to a `;` at their end.
The name is a word then and the body is joined from words. An error names the text. -/
theorem Definition.ofClause_reads :
    (∀ name body, IsWord name → (∀ w ∈ body, IsWord w) →
      ofClause (joinWords (opener :: (name :: body ++ [closer]))) = .ok ⟨name, joinWords body⟩) ∧
    (∀ line before name body after,
      words line = before ++ opener :: (name :: body ++ closer :: after) →
      IsWellDelimited (words line) →
      ∃ clause, foldClause (words line) = .ok (before ++ clause :: after) ∧
        ofClause clause = .ok ⟨name, joinWords body⟩ ∧ words (joinWords body) = body) ∧
    ∀ clause,
      ((∃ d, ofClause clause = .ok d) ↔ ∃ inner, Encloses (words clause) inner ∧ inner ≠ []) ∧
      (∀ d, ofClause clause = .ok d → IsWord d.name ∧
        ∃ body, Encloses (words clause) (d.name :: body) ∧ (∀ w ∈ body, IsWord w) ∧
          d.body = joinWords body) ∧
      ((¬ ∃ inner, Encloses (words clause) inner ∧ inner ≠ []) →
        ofClause clause = .error (.malformedDefinition clause)) := by
  refine ⟨fun name body => ofClause_joinWords, ?_, fun clause =>
    ⟨exists_ofClause_iff clause, ?_, ?_⟩⟩
  · intro line before name body after hline hdelimited
    have hword : ∀ w ∈ name :: body, IsWord w := by
      intro w hw
      have hmem : w ∈ words line := by
        rw [hline]
        exact List.mem_append_right _ (List.mem_cons_of_mem _ (List.mem_append_left _ hw))
      exact isWord_of_mem_words hmem
    obtain ⟨hname, hbody⟩ := List.forall_mem_cons.mp hword
    obtain ⟨tokens, htokens⟩ := (exists_foldClause_iff _).mpr hdelimited
    rw [hline] at htokens ⊢
    obtain ⟨hbefore, hinner, hafter⟩ := plain_of_foldClause htokens
    exact ⟨_, foldClause_of_clause hbefore hinner hafter, ofClause_joinWords hname hbody,
      words_joinWords hbody⟩
  · intro d hd
    obtain ⟨body, hencloses, hbody⟩ := (ofClause_eq_ok_iff clause d).mp hd
    have hword : ∀ w ∈ d.name :: body, IsWord w :=
      fun w hw => isWord_of_mem_words (hencloses.subset hw)
    obtain ⟨hname, hwords⟩ := List.forall_mem_cons.mp hword
    exact ⟨hname, body, hencloses, hwords, hbody⟩
  · intro hnone
    cases hclause : ofClause clause with
    | ok d => exact absurd ((exists_ofClause_iff clause).mp ⟨d, hclause⟩) hnone
    | error e => rw [ofClause_of_error hclause]

/-- A `;` is a name where another one follows, and only there. -/
example : Definition.ofClause ": ; ;" = .ok ⟨";", ""⟩ ∧
    Definition.ofClause ": ;" = .error (.malformedDefinition ": ;") := by decide

end ColonForth
