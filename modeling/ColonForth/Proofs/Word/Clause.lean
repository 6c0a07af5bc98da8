import ColonForth.Word.Builtin
import ColonForth.Word.Clause
import Mathlib.Data.List.TakeWhile

/-! The tokens of a line that holds a clause. -/
namespace ColonForth
open Text

/-- A word that may stand between `:` and `;`. -/
def IsPlainWord (s : String) : Prop :=
  IsWord s ∧ s ≠ opener ∧ s ≠ closer

def clauseToken (inner : List String) : String :=
  joinWords (opener :: inner ++ [closer])

def IsClauseOf (token : String) (line : List String) : Prop :=
  ∃ before inner after, line = before ++ opener :: (inner ++ closer :: after) ∧
    token = clauseToken inner

/-- A line without delimiters is left as it is. In any other line there is one clause without a
delimiter inside, which becomes one token. -/
inductive FoldsTo : List String → List String → Prop
  | plain {line : List String} (h : ∀ t ∈ line, isPlain t = true) : FoldsTo line line
  | clause {before inner after : List String} (hbefore : ∀ t ∈ before, isPlain t = true)
      (hinner : ∀ t ∈ inner, isPlain t = true) (hafter : ∀ t ∈ after, isPlain t = true) :
      FoldsTo (before ++ opener :: (inner ++ closer :: after))
        (before ++ clauseToken inner :: after)

theorem isDelimiter_iff (token : String) :
    isDelimiter token = true ↔ token = opener ∨ token = closer := by
  simp [isDelimiter]

theorem isPlain_iff (token : String) : isPlain token = true ↔ token ≠ opener ∧ token ≠ closer := by
  simp [isPlain, isDelimiter]

theorem not_isPlain_iff (token : String) :
    ¬ isPlain token = true ↔ token = opener ∨ token = closer := by
  simp [isPlain, isDelimiter_iff]

theorem dropWhile_isPlain_eq_cons {tokens rest : List String} {first : String}
    (h : tokens.dropWhile isPlain = first :: rest) :
    tokens = tokens.takeWhile isPlain ++ first :: rest ∧
      ∀ t ∈ tokens.takeWhile isPlain, isPlain t = true := by
  refine ⟨?_, fun t ht => List.mem_takeWhile_imp ht⟩
  rw [← h, List.takeWhile_append_dropWhile]

theorem foldClause_eq_ok_iff (line tokens : List String) :
    foldClause line = .ok tokens ↔ FoldsTo line tokens := by
  constructor
  · intro h
    unfold foldClause at h
    split at h
    · next hfirst =>
      obtain rfl := Except.ok.inj h
      rw [List.dropWhile_eq_nil_iff] at hfirst
      exact .plain hfirst
    · next first rest hfirst =>
      split at h
      · cases h
      · next last after hlast =>
        split at h
        · next hdelimiters =>
          obtain ⟨rfl, rfl, hafter⟩ := hdelimiters
          obtain rfl := Except.ok.inj h
          obtain ⟨hline, hbefore⟩ := dropWhile_isPlain_eq_cons hfirst
          obtain ⟨hrest, hinner⟩ := dropWhile_isPlain_eq_cons hlast
          have hfolds := FoldsTo.clause hbefore hinner (List.all_eq_true.mp hafter)
          rwa [← hrest, ← hline] at hfolds
        · cases h
  · intro h
    cases h with
    | plain hplain => exact foldClause_of_plain hplain
    | clause hbefore hinner hafter => exact foldClause_of_clause hbefore hinner hafter

/-! ### Delimiters are counted -/

theorem count_delimiter {d : String} (hd : ¬ isPlain d = true) (before inner after : List String) :
    (before ++ opener :: (inner ++ closer :: after)).count d =
      before.count d + inner.count d + after.count d + 1 := by
  have hone : [opener, closer].count d = 1 := by
    rcases (not_isPlain_iff d).mp hd with rfl | rfl <;> rfl
  rw [List.count_cons, List.count_cons, List.count_nil] at hone
  rw [List.count_append, List.count_cons, List.count_append, List.count_cons]
  omega

theorem forall_isPlain_iff (tokens : List String) :
    (∀ t ∈ tokens, isPlain t = true) ↔ ∀ d, ¬ isPlain d = true → tokens.count d = 0 := by
  constructor
  · intro h d hd
    rw [List.count_eq_zero]
    exact fun hmem => hd (h d hmem)
  · intro h t ht
    by_contra hplain
    exact List.count_eq_zero.mp (h t hplain) ht

theorem count_eq_one_of_plain {d : String} (hd : ¬ isPlain d = true)
    {before inner after : List String} (hbefore : ∀ t ∈ before, isPlain t = true)
    (hinner : ∀ t ∈ inner, isPlain t = true) (hafter : ∀ t ∈ after, isPlain t = true) :
    (before ++ opener :: (inner ++ closer :: after)).count d = 1 := by
  rw [count_delimiter hd, (forall_isPlain_iff _).mp hbefore d hd,
    (forall_isPlain_iff _).mp hinner d hd, (forall_isPlain_iff _).mp hafter d hd]

theorem FoldsTo.count_le {line tokens : List String} (h : FoldsTo line tokens) {d : String}
    (hd : ¬ isPlain d = true) : line.count d ≤ 1 := by
  cases h with
  | plain hplain =>
    rw [(forall_isPlain_iff _).mp hplain d hd]
    omega
  | clause hbefore hinner hafter => exact (count_eq_one_of_plain hd hbefore hinner hafter).le

/-- No delimiter stands around the `:` and the `;` of a list that has no more of them. -/
theorem plain_of_count_le {before inner after : List String}
    (h : ∀ d, ¬ isPlain d = true →
      (before ++ opener :: (inner ++ closer :: after)).count d ≤ 1) :
    (∀ t ∈ before, isPlain t = true) ∧ (∀ t ∈ inner, isPlain t = true) ∧
      ∀ t ∈ after, isPlain t = true := by
  have hzero : ∀ d, ¬ isPlain d = true →
      before.count d = 0 ∧ inner.count d = 0 ∧ after.count d = 0 := by
    intro d hd
    have hle := h d hd
    rw [count_delimiter hd] at hle
    omega
  simp only [forall_isPlain_iff]
  exact ⟨fun d hd => (hzero d hd).1, fun d hd => (hzero d hd).2.1, fun d hd => (hzero d hd).2.2⟩

/-- Wherever the delimiters of an accepted line are found, no others stand around them. -/
theorem plain_of_foldClause {before inner after tokens : List String}
    (h : foldClause (before ++ opener :: (inner ++ closer :: after)) = .ok tokens) :
    (∀ t ∈ before, isPlain t = true) ∧ (∀ t ∈ inner, isPlain t = true) ∧
      ∀ t ∈ after, isPlain t = true := by
  apply plain_of_count_le
  intro d hd
  exact ((foldClause_eq_ok_iff _ _).mp h).count_le hd

theorem IsClauseOf.exists_inner {token : String} {line tokens : List String}
    (h : IsClauseOf token line) (htokens : foldClause line = .ok tokens) :
    token ∈ tokens ∧
      ∃ inner, (∀ t ∈ inner, t ∈ line ∧ isPlain t = true) ∧ token = clauseToken inner := by
  obtain ⟨before, inner, after, rfl, rfl⟩ := h
  obtain ⟨hbefore, hinner, hafter⟩ := plain_of_foldClause htokens
  rw [foldClause_of_clause hbefore hinner hafter] at htokens
  obtain rfl := Except.ok.inj htokens
  refine ⟨List.mem_append_right _ List.mem_cons_self, inner, fun t ht => ⟨?_, hinner t ht⟩, rfl⟩
  exact List.mem_append_right _ (List.mem_cons_of_mem _ (List.mem_append_left _ ht))

/-- A token is a plain word of the line, except for the clause. -/
theorem mem_of_foldClause {token : String} {line tokens : List String}
    (h : foldClause line = .ok tokens) (htoken : token ∈ tokens)
    (hclause : ¬ IsClauseOf token line) : token ∈ line ∧ isPlain token = true := by
  rw [foldClause_eq_ok_iff] at h
  cases h with
  | plain hplain => exact ⟨htoken, hplain token htoken⟩
  | @clause before inner after hbefore hinner hafter =>
    rcases List.mem_append.mp htoken with hmem | hmem
    · exact ⟨List.mem_append_left _ hmem, hbefore token hmem⟩
    rcases List.mem_cons.mp hmem with rfl | hmem
    · exact absurd ⟨before, inner, after, rfl, rfl⟩ hclause
    · refine ⟨List.mem_append_right _ (List.mem_cons_of_mem _ ?_), hafter token hmem⟩
      exact List.mem_append_right _ (List.mem_cons_of_mem _ hmem)

/-! ### Errors name the whole text -/

theorem foldClause_of_error {line : List String} {e : Error} (h : foldClause line = .error e) :
    e = .malformedDefinition (joinWords line) := by
  unfold foldClause at h
  split at h
  · cases h
  · split at h
    · exact (Except.error.inj h).symm
    · split at h
      · cases h
      · exact (Except.error.inj h).symm

theorem Definition.ofClause_of_error {clause : String} {e : Error}
    (h : ofClause clause = .error e) : e = .malformedDefinition clause := by
  unfold ofClause at h
  split at h
  · cases h
  · exact (Except.error.inj h).symm

/-! ### Lines in one -/

theorem FoldsTo.plain_of_opener_notMem {line tokens : List String} (h : FoldsTo line tokens)
    (hopener : opener ∉ line) : (∀ t ∈ line, isPlain t = true) ∧ tokens = line := by
  cases h with
  | plain hplain => exact ⟨hplain, rfl⟩
  | @clause before =>
    exact absurd (List.mem_append_right before List.mem_cons_self) hopener

/-- Two accepted lines of which one at most has a clause are folded as one line. -/
theorem foldClause_append {xs ys xs' ys' : List String} (hxs : foldClause xs = .ok xs')
    (hys : foldClause ys = .ok ys') (hopener : ¬ (opener ∈ xs ∧ opener ∈ ys)) :
    foldClause (xs ++ ys) = .ok (xs' ++ ys') := by
  rw [foldClause_eq_ok_iff] at hxs hys ⊢
  rcases not_and_or.mp hopener with hopener | hopener
  · obtain ⟨hplain, rfl⟩ := hxs.plain_of_opener_notMem hopener
    cases hys with
    | plain hplain' => exact .plain (List.forall_mem_append.mpr ⟨hplain, hplain'⟩)
    | clause hbefore hinner hafter =>
      rw [← List.append_assoc, ← List.append_assoc]
      exact .clause (List.forall_mem_append.mpr ⟨hplain, hbefore⟩) hinner hafter
  · obtain ⟨hplain, rfl⟩ := hys.plain_of_opener_notMem hopener
    cases hxs with
    | plain hplain' => exact .plain (List.forall_mem_append.mpr ⟨hplain', hplain⟩)
    | clause hbefore hinner hafter =>
      simp only [List.append_assoc, List.cons_append]
      exact .clause hbefore hinner (List.forall_mem_append.mpr ⟨hafter, hplain⟩)

/-! ### A clause is not a word -/

theorem isPlainWord_iff (s : String) : IsPlainWord s ↔ IsWord s ∧ isPlain s = true := by
  rw [IsPlainWord, isPlain_iff]

theorem isPlainWord_of_mem_words {line w : String} (hw : w ∈ words line) (h : isPlain w = true) :
    IsPlainWord w :=
  (isPlainWord_iff w).mpr ⟨isWord_of_mem_words hw, h⟩

theorem IsPlainWord.opener_notMem_words {w : String} (h : IsPlainWord w) : opener ∉ words w := by
  rw [words_of_isWord h.1, List.mem_singleton]
  exact h.2.1.symm

theorem clauseToken_eq (inner : List String) :
    clauseToken inner = ":" ++ (" " ++ joinWords (inner ++ [closer])) := by
  rw [clauseToken, List.cons_append, joinWords_cons opener (by simp), ← String.append_assoc]
  rfl

theorem space_mem_joinWords {v w : String} (ws : List String) :
    ' ' ∈ (joinWords (v :: w :: ws)).toList := by
  rw [joinWords_cons v (List.cons_ne_nil w ws)]
  simp

theorem not_isWord_of_space {s : String} (h : ' ' ∈ s.toList) : ¬ IsWord s := by
  intro hword
  have hspace := hword.2 ' ' h
  rw [isBlank_space] at hspace
  cases hspace

theorem not_isWord_clauseToken (inner : List String) : ¬ IsWord (clauseToken inner) := by
  apply not_isWord_of_space
  cases inner with
  | nil => exact space_mem_joinWords []
  | cons w ws => exact space_mem_joinWords (ws ++ [closer])

theorem Builtin.isWord_name (b : Builtin) : IsWord b.name := by
  cases b <;> decide

end ColonForth
