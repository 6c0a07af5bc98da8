import ColonForth.Text.Words
import Mathlib.Data.List.Forall2
import Mathlib.Data.List.SplitBy

/-! Gaps and words. The runs of a line are gaps and words, and together they are the line. -/
namespace ColonForth.Text

def IsGap (s : String) : Prop :=
  s ≠ "" ∧ ∀ c ∈ s.toList, isBlank c = true

theorem isGap_singleton {c : Char} (h : isBlank c = true) : IsGap (String.singleton c) := by
  refine ⟨by simp [← String.toList_inj], ?_⟩
  intro d hd
  obtain rfl : d = c := by simpa using hd
  exact h

theorem IsGap.not_isWord {s : String} (h : IsGap s) : ¬ IsWord s := by
  intro hword
  have hne : s.toList ≠ [] := by simpa using h.1
  obtain ⟨c, cs, hcs⟩ := List.exists_cons_of_ne_nil hne
  have hmem : c ∈ s.toList := by simp [hcs]
  have hblank := h.2 c hmem
  rw [hword.2 c hmem] at hblank
  cases hblank

/-- Two gaps, or two words in the relation `R`. -/
def Matches (R : String → String → Prop) (s t : String) : Prop :=
  IsGap s ∧ IsGap t ∨ IsWord s ∧ IsWord t ∧ R s t

/-- The text is empty or begins with a blank, so that a word in front of it ends there. -/
def EndsWord (s : String) : Prop :=
  ∀ c cs, s.toList = c :: cs → isBlank c = true

theorem endsWord_empty : EndsWord "" := by
  intro c cs h
  cases h

theorem IsGap.endsWord_append {gap : String} (h : IsGap gap) (rest : String) :
    EndsWord (gap ++ rest) := by
  intro c cs hcs
  have hne : gap.toList ≠ [] := by simpa using h.1
  obtain ⟨d, ds, hds⟩ := List.exists_cons_of_ne_nil hne
  rw [String.toList_append, hds, List.cons_append] at hcs
  obtain ⟨rfl, -⟩ := List.cons.inj hcs
  exact h.2 d (hds ▸ List.mem_cons_self)

theorem splitWords_blank_append {gap : List Char} (h : ∀ c ∈ gap, isBlank c = true)
    (cs : List Char) : splitWords (gap ++ cs) = splitWords cs := by
  induction gap with
  | nil => rfl
  | cons c gap ih =>
    rw [List.cons_append, splitWords_cons_blank (h c List.mem_cons_self)]
    exact ih fun d hd => h d (List.mem_cons_of_mem c hd)

theorem words_gap_append {gap : String} (h : IsGap gap) (rest : String) :
    words (gap ++ rest) = words rest := by
  rw [words, String.toList_append, splitWords_blank_append h.2, words]

theorem words_word_append {w rest : String} (hw : IsWord w) (hrest : EndsWord rest) :
    words (w ++ rest) = w :: words rest := by
  cases hcs : rest.toList with
  | nil =>
    obtain rfl : rest = "" := by simpa using hcs
    rw [String.append_empty, words_of_isWord hw, words_empty]
  | cons c cs =>
    have hblank := hrest c cs hcs
    have hw' : (splitWords w.toList).map String.ofList = [w] := words_of_isWord hw
    rw [words, words, String.toList_append, hcs, splitWords_append_blank hblank,
      splitWords_cons_blank hblank, List.map_append, hw', List.singleton_append]

/-- The line is made of the texts in this order and of gaps. There is a gap between any two texts,
and there may be more in front of them and behind them. -/
inductive Spaced : List String → String → Prop
  | nil : Spaced [] ""
  | gap {texts : List String} {line : String} (blanks : String) (h : IsGap blanks)
      (hline : Spaced texts line) : Spaced texts (blanks ++ line)
  | text {texts : List String} {line : String} (s : String) (h : EndsWord line)
      (hline : Spaced texts line) : Spaced (s :: texts) (s ++ line)

theorem Spaced.words_eq {ws : List String} {line : String} (h : Spaced ws line)
    (hws : ∀ w ∈ ws, IsWord w) : words line = ws := by
  induction h with
  | nil => exact words_empty
  | gap blanks hblanks _ ih => rw [words_gap_append hblanks, ih hws]
  | text w hends _ ih =>
    have hrest := ih fun v hv => hws v (List.mem_cons_of_mem w hv)
    rw [words_word_append (hws w List.mem_cons_self) hends, hrest]

variable {R : String → String → Prop} {pieces pieces' : List String}

theorem endsWord_join (h : ∀ p ∈ pieces.head?, IsGap p) : EndsWord (String.join pieces) := by
  cases pieces with
  | nil => exact endsWord_empty
  | cons p pieces =>
    rw [String.join_cons]
    exact (h p rfl).endsWord_append _

theorem forall_head?_isGap (h : List.Forall₂ (Matches R) pieces pieces')
    (hfirst : ∀ p ∈ pieces.head?, ¬ IsWord p) :
    (∀ p ∈ pieces.head?, IsGap p) ∧ ∀ p ∈ pieces'.head?, IsGap p := by
  cases h with
  | nil => simp
  | cons hpq _ =>
    rcases hpq with ⟨hp, hq⟩ | ⟨hp, -, -⟩
    · simp [hp, hq]
    · exact absurd hp (hfirst _ rfl)

/-- Pieces that match have words that are in the relation, provided that no two words touch. -/
theorem forall₂_words_join (h : List.Forall₂ (Matches R) pieces pieces')
    (happart : pieces.IsChain fun p q => IsWord p → ¬ IsWord q) :
    List.Forall₂ R (words (String.join pieces)) (words (String.join pieces')) := by
  induction h with
  | nil => rw [String.join_nil, words_empty]; exact .nil
  | cons hpq hrest ih =>
    obtain ⟨hfirst, happart⟩ := List.isChain_cons.mp happart
    rw [String.join_cons, String.join_cons]
    rcases hpq with ⟨hp, hq⟩ | ⟨hp, hq, hR⟩
    · rw [words_gap_append hp, words_gap_append hq]
      exact ih happart
    · obtain ⟨hgap, hgap'⟩ := forall_head?_isGap hrest fun r hr => hfirst r hr hp
      rw [words_word_append hp (endsWord_join hgap), words_word_append hq (endsWord_join hgap')]
      exact .cons hR (ih happart)

theorem join_runs (line : String) : String.join (runs line) = line := by
  rw [← String.toList_inj, String.toList_join, runs, List.flatMap_map]
  simp

theorem isGap_or_isWord_of_mem_runs {line run : String} (h : run ∈ runs line) :
    IsGap run ∨ IsWord run := by
  obtain ⟨cs, hcs, rfl⟩ := List.mem_map.mp h
  have hchain := (List.isChain_of_mem_splitBy hcs).imp fun c d hcd => beq_iff_eq.mp hcd
  obtain ⟨c, cs, rfl⟩ := List.exists_cons_of_ne_nil (List.ne_nil_of_mem_splitBy hcs)
  have hpairwise := ((List.isChain_map isBlank).mpr hchain).pairwise
  have hsame : ∀ d ∈ c :: cs, isBlank d = isBlank c := by
    intro d hd
    rcases List.mem_cons.mp hd with rfl | hd
    · rfl
    · exact (List.rel_of_pairwise_cons hpairwise (List.mem_map_of_mem hd)).symm
  cases hc : isBlank c with
  | true =>
    left
    refine ⟨by simp [← String.toList_inj], ?_⟩
    intro d hd
    rw [hsame d (by simpa using hd), hc]
  | false =>
    right
    refine ⟨by simp [← String.toList_inj], ?_⟩
    intro d hd
    rw [hsame d (by simpa using hd), hc]

theorem isChain_runs_alternate (line : String) :
    (runs line).IsChain fun p q => IsGap p ↔ IsWord q := by
  rw [runs, List.isChain_map]
  apply (List.isChain_getLast_head_splitBy _ line.toList).imp_of_mem_imp
  rintro cs ds hcs hds ⟨hne, hne', hdiffer⟩
  have hlast : cs.getLast hne ∈ (String.ofList cs).toList := by simp
  have hhead : ds.head hne' ∈ (String.ofList ds).toList := by simp
  rcases isGap_or_isWord_of_mem_runs (List.mem_map_of_mem hcs) with hp | hp <;>
    rcases isGap_or_isWord_of_mem_runs (List.mem_map_of_mem hds) with hq | hq
  · simp [hp.2 _ hlast, hq.2 _ hhead] at hdiffer
  · exact iff_of_true hp hq
  · exact iff_of_false (fun h => h.not_isWord hp) hq.not_isWord
  · simp [hp.2 _ hlast, hq.2 _ hhead] at hdiffer

/-- No two words touch. -/
theorem isChain_runs (line : String) :
    (runs line).IsChain fun p q => IsWord p → ¬ IsWord q :=
  (isChain_runs_alternate line).imp fun _ _ h hp hq => (h.mpr hq).not_isWord hp

theorem spaced_join (h : ∀ p ∈ pieces, IsGap p ∨ IsWord p)
    (happart : pieces.IsChain fun p q => IsWord p → ¬ IsWord q) :
    Spaced (pieces.filter fun p => IsWord p) (String.join pieces) := by
  induction pieces with
  | nil => exact .nil
  | cons p pieces ih =>
    obtain ⟨hfirst, happart⟩ := List.isChain_cons.mp happart
    have hrest := ih (fun q hq => h q (List.mem_cons_of_mem p hq)) happart
    rw [String.join_cons]
    rcases h p List.mem_cons_self with hp | hp
    · rw [List.filter_cons_of_neg (by simpa using hp.not_isWord)]
      exact .gap p hp hrest
    · rw [List.filter_cons_of_pos (by simpa using hp)]
      refine .text p (endsWord_join ?_) hrest
      intro q hq
      exact (h q (List.mem_cons_of_mem p (List.mem_of_mem_head? hq))).resolve_right
        (hfirst q hq hp)

/-- The runs that are words are the words of the line. -/
theorem filter_isWord_runs (line : String) :
    (runs line).filter (fun run => IsWord run) = words line := by
  have hspaced := spaced_join (fun _ => isGap_or_isWord_of_mem_runs) (isChain_runs line)
  rw [join_runs] at hspaced
  refine (hspaced.words_eq ?_).symm
  intro w hw
  simpa using List.of_mem_filter hw

end ColonForth.Text
