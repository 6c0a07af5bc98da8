import ColonForth.Text.Blank

/-! A line is words with blanks between them. `words` forgets the blanks, `joinWords` puts one space
between each two words, and `runs` keeps every character. -/
namespace ColonForth.Text

def splitWords (cs : List Char) : List (List Char) :=
  (cs.splitOnP isBlank).filter (!·.isEmpty)

def words (line : String) : List String :=
  (splitWords line.toList).map String.ofList

def joinWords (ws : List String) : String :=
  " ".intercalate ws

/-- The line cut wherever a blank meets a character that is not blank. -/
def runs (line : String) : List String :=
  (line.toList.splitBy fun c d => isBlank c == isBlank d).map String.ofList

def IsWord (s : String) : Prop :=
  s ≠ "" ∧ ∀ c ∈ s.toList, isBlank c = false

instance (s : String) : Decidable (IsWord s) :=
  decidable_of_iff (s ≠ "" ∧ s.toList.all (!isBlank ·) = true) (by simp [IsWord])

@[simp] theorem splitWords_nil : splitWords [] = [] := by
  simp [splitWords]

theorem splitWords_append_blank {c : Char} (hc : isBlank c = true) (xs ys : List Char) :
    splitWords (xs ++ c :: ys) = splitWords xs ++ splitWords ys := by
  simp [splitWords, List.splitOnP_append_cons xs ys hc]

theorem splitWords_cons_blank {c : Char} (hc : isBlank c = true) (cs : List Char) :
    splitWords (c :: cs) = splitWords cs := by
  simpa using splitWords_append_blank hc [] cs

theorem splitWords_of_no_blank {cs : List Char} (hne : cs ≠ [])
    (h : ∀ c ∈ cs, isBlank c = false) : splitWords cs = [cs] := by
  simp [splitWords, List.splitOnP_eq_singleton h, hne]

private theorem no_blank_of_mem_splitOnP :
    ∀ {cs w : List Char}, w ∈ cs.splitOnP isBlank → ∀ c ∈ w, isBlank c = false
  | [], w, h => by simp_all
  | d :: cs, w, h => by
    rw [List.splitOnP_cons_eq_if_modifyHead] at h
    obtain ⟨first, rest, hsplit⟩ := List.exists_cons_of_ne_nil (List.splitOnP_ne_nil isBlank cs)
    split at h
    · rcases List.mem_cons.mp h with rfl | h
      · simp
      · exact no_blank_of_mem_splitOnP h
    · next hd =>
      rw [hsplit, List.modifyHead_cons] at h
      rcases List.mem_cons.mp h with rfl | h
      · intro c hc
        rcases List.mem_cons.mp hc with rfl | hc
        · simpa using hd
        · exact no_blank_of_mem_splitOnP (hsplit ▸ List.mem_cons_self) c hc
      · exact no_blank_of_mem_splitOnP (hsplit ▸ List.mem_cons_of_mem _ h)

theorem mem_splitWords {cs w : List Char} (h : w ∈ splitWords cs) :
    w ≠ [] ∧ ∀ c ∈ w, isBlank c = false := by
  obtain ⟨hmem, hne⟩ := List.mem_filter.mp h
  exact ⟨by simpa using hne, no_blank_of_mem_splitOnP hmem⟩

theorem isWord_of_mem_words {line w : String} (h : w ∈ words line) : IsWord w := by
  obtain ⟨cs, hcs, rfl⟩ := List.mem_map.mp h
  obtain ⟨hne, hblank⟩ := mem_splitWords hcs
  exact ⟨by simpa [← String.toList_inj] using hne, by simpa using hblank⟩

@[simp] theorem words_empty : words "" = [] := by
  simp [words]

theorem words_append_blank {s t : String} {c : Char} (hc : isBlank c = true) :
    words (s ++ String.singleton c ++ t) = words s ++ words t := by
  simp [words, splitWords_append_blank hc]

theorem words_of_isWord {w : String} (h : IsWord w) : words w = [w] := by
  have hne : w.toList ≠ [] := by simpa using h.1
  simp [words, splitWords_of_no_blank hne h.2]

@[simp] theorem joinWords_nil : joinWords [] = "" := by
  simp [joinWords]

@[simp] theorem joinWords_singleton (w : String) : joinWords [w] = w := by
  simp [joinWords]

theorem joinWords_cons (w : String) {ws : List String} (h : ws ≠ []) :
    joinWords (w :: ws) = w ++ String.singleton ' ' ++ joinWords ws := by
  simpa [joinWords] using String.intercalate_cons_of_ne_nil h

theorem joinWords_append {xs ys : List String} (hxs : xs ≠ []) (hys : ys ≠ []) :
    joinWords (xs ++ ys) = joinWords xs ++ String.singleton ' ' ++ joinWords ys := by
  simpa [joinWords] using String.intercalate_append_of_ne_nil hxs hys

/-- Joined words can be told apart again. -/
theorem words_joinWords {ws : List String} (h : ∀ w ∈ ws, IsWord w) :
    words (joinWords ws) = ws := by
  induction ws with
  | nil => simp
  | cons w ws ih =>
    have hw := words_of_isWord (h w List.mem_cons_self)
    cases ws with
    | nil => simpa using hw
    | cons v vs =>
      rw [joinWords_cons w (List.cons_ne_nil v vs), words_append_blank isBlank_space, hw,
        ih fun u hu => h u (List.mem_cons_of_mem w hu)]
      rfl

end ColonForth.Text
