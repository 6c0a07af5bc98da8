import ColonForth.Proofs.Text.Runs

/-! Lines that are written around words. There is one way only to split them again. -/
namespace ColonForth.Text

def IsBlankText (s : String) : Prop :=
  ∀ c ∈ s.toList, isBlank c = true

structure Spacing where
  front : String
  gaps : List String
  behind : String

/-- The words in their order, each but the first behind a gap. -/
def weave : List String → List String → String
  | [], _ => ""
  | w :: ws, gaps => w ++ String.join (List.zipWith (· ++ ·) gaps ws)

namespace Spacing

def line (s : Spacing) (ws : List String) : String :=
  s.front ++ (weave ws s.gaps ++ s.behind)

/-- There is a gap between any two neighbours, and nothing but blanks in front and behind. -/
structure Fits (s : Spacing) (ws : List String) : Prop where
  front : IsBlankText s.front
  gaps : ∀ gap ∈ s.gaps, IsGap gap
  behind : IsBlankText s.behind
  length_gaps : s.gaps.length = ws.length - 1

end Spacing

theorem isBlankText_empty : IsBlankText "" := by
  simp [IsBlankText]

theorem IsBlankText.append {s t : String} (hs : IsBlankText s) (ht : IsBlankText t) :
    IsBlankText (s ++ t) := by
  intro c hc
  rw [String.toList_append, List.mem_append] at hc
  exact hc.elim (hs c) (ht c)

theorem IsBlankText.endsWord {s : String} (h : IsBlankText s) : EndsWord s :=
  fun c _ hcs => h c (hcs ▸ List.mem_cons_self)

@[simp] theorem weave_singleton (w : String) (gaps : List String) : weave [w] gaps = w := by
  simp [weave]

@[simp] theorem weave_cons_cons (w v gap : String) (ws gaps : List String) :
    weave (w :: v :: ws) (gap :: gaps) = w ++ (gap ++ weave (v :: ws) gaps) := by
  simp [weave, String.append_assoc]

theorem Spaced.blanks_append {blanks line : String} {ws : List String} (h : IsBlankText blanks)
    (hline : Spaced ws line) : Spaced ws (blanks ++ line) := by
  by_cases hempty : blanks = ""
  · rwa [hempty, String.empty_append]
  · exact .gap blanks ⟨hempty, h⟩ hline

theorem spaced_weave {ws gaps : List String} {behind : String} (hgaps : ∀ gap ∈ gaps, IsGap gap)
    (hbehind : IsBlankText behind) (hlength : gaps.length = ws.length - 1) :
    Spaced ws (weave ws gaps ++ behind) := by
  have hend : Spaced [] behind := by
    simpa using Spaced.nil.blanks_append hbehind
  induction ws generalizing gaps with
  | nil => simpa [weave] using hend
  | cons w ws ih =>
    cases ws with
    | nil =>
      rw [weave_singleton]
      exact .text w hbehind.endsWord hend
    | cons v ws =>
      cases gaps with
      | nil => simp at hlength
      | cons gap gaps =>
        obtain ⟨hgap, hgaps⟩ := List.forall_mem_cons.mp hgaps
        have hrest := ih hgaps (by simpa using hlength)
        rw [weave_cons_cons, String.append_assoc, String.append_assoc]
        exact .text w (hgap.endsWord_append _) (.gap gap hgap hrest)

theorem Spacing.Fits.spaced {s : Spacing} {ws : List String} (h : s.Fits ws) :
    Spaced ws (s.line ws) :=
  (spaced_weave h.gaps h.behind h.length_gaps).blanks_append h.front

theorem not_endsWord_append {w : String} (hw : IsWord w) (rest : String) :
    ¬ EndsWord (w ++ rest) := by
  intro h
  have hne : w.toList ≠ [] := by simpa using hw.1
  obtain ⟨c, cs, hcs⟩ := List.exists_cons_of_ne_nil hne
  have hblank := h c (cs ++ rest.toList) (by rw [String.toList_append, hcs, List.cons_append])
  rw [hw.2 c (hcs ▸ List.mem_cons_self)] at hblank
  cases hblank

theorem Spaced.exists_spacing {ws : List String} {line : String} (h : Spaced ws line)
    (hws : ∀ w ∈ ws, IsWord w) : ∃ s : Spacing, s.Fits ws ∧ line = s.line ws := by
  induction h with
  | nil =>
    exact ⟨⟨"", [], ""⟩, ⟨isBlankText_empty, by simp, isBlankText_empty, rfl⟩, rfl⟩
  | gap blanks hblanks _ ih =>
    obtain ⟨s, hfits, rfl⟩ := ih hws
    refine ⟨{ s with front := blanks ++ s.front }, ?_, ?_⟩
    · exact { hfits with front := IsBlankText.append hblanks.2 hfits.front }
    · simp [Spacing.line, String.append_assoc]
  | @text texts _ w hends _ ih =>
    obtain ⟨s, hfits, rfl⟩ := ih fun v hv => hws v (List.mem_cons_of_mem w hv)
    cases texts with
    | nil =>
      refine ⟨⟨"", [], s.front ++ s.behind⟩, ⟨isBlankText_empty, by simp, ?_, rfl⟩, ?_⟩
      · exact hfits.front.append hfits.behind
      · simp [Spacing.line, weave]
    | cons v texts =>
      -- What stood in front of the next word is a gap now, since two words do not touch.
      have hne : s.front ≠ "" := by
        intro hempty
        have hline : s.line (v :: texts) =
            v ++ (String.join (List.zipWith (· ++ ·) s.gaps texts) ++ s.behind) := by
          simp [Spacing.line, weave, hempty, String.append_assoc]
        rw [hline] at hends
        exact not_endsWord_append (hws v (by simp)) _ hends
      refine ⟨⟨"", s.front :: s.gaps, s.behind⟩,
        ⟨isBlankText_empty, ?_, hfits.behind, ?_⟩, ?_⟩
      · exact List.forall_mem_cons.mpr ⟨⟨hne, hfits.front⟩, hfits.gaps⟩
      · simp [hfits.length_gaps]
      · simp [Spacing.line, String.append_assoc]

theorem spaced_words (line : String) : Spaced (words line) line := by
  have hspaced := spaced_join (fun _ => isGap_or_isWord_of_mem_runs) (isChain_runs line)
  rwa [join_runs, filter_isWord_runs] at hspaced

/-- The words of a line are the words that it is written around, with gaps between them and with
blanks, if any, in front and behind. In particular they are found again when they are joined. -/
theorem words_eq_iff_spacing (line : String) (ws : List String) :
    (words line = ws ↔
      (∀ w ∈ ws, IsWord w) ∧ ∃ s : Spacing, s.Fits ws ∧ line = s.line ws) ∧
      ((∀ w ∈ ws, IsWord w) → words (joinWords ws) = ws) := by
  refine ⟨⟨?_, ?_⟩, words_joinWords⟩
  · rintro rfl
    have hword : ∀ w ∈ words line, IsWord w := fun w hw => isWord_of_mem_words hw
    exact ⟨hword, (spaced_words line).exists_spacing hword⟩
  · rintro ⟨hword, s, hfits, rfl⟩
    exact hfits.spaced.words_eq hword

/-- Neither the zero width space nor the separators of ASCII are blanks. -/
example : words "\u2003a\u200Bb\u00A0\u3000c\x1Fd\u0085" = ["a\u200Bb", "c\x1Fd"] := by decide

end ColonForth.Text
