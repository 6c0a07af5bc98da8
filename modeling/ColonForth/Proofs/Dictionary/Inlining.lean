import ColonForth.Proofs.Dictionary.Reachable
import ColonForth.Proofs.Session.JoinedLines
import ColonForth.Proofs.Session.Lockstep
import ColonForth.Proofs.Text.Runs

/-! Inlining: words of a line are replaced by the words that they stand for. -/
namespace ColonForth
open Text
open ColonForth.Action

/-- The line with the bodies of the words at the chosen places in their stead. Places are counted
among the runs of the line. What stands for no other word is kept. -/
def Dictionary.inlined (d : Dictionary) (chosen : Nat → Bool) (line : String) : String :=
  String.join ((runs line).mapIdx fun i run => if chosen i then (d.aliasOf? run).getD run else run)

namespace Machine

/-- The word stands for one other word, and the machine follows its chain to the end. -/
structure CanInline (m : Machine) (word : String) : Prop where
  exists_body : ∃ body, m.dictionary.aliasOf? word = some body ∧ (words body).length = 1
  exists_end : ∃ n ≤ m.maxDepth, ∃ last, m.dictionary.ChainEnds word n last

/-- What may be written for a word: the word itself, or what it stands for. -/
def Inlines (m : Machine) (word word' : String) : Prop :=
  word' = word ∨ m.CanInline word ∧ m.dictionary.aliasOf? word = some word'

variable {m here : Machine} {word body : String}

/-- The chain of the body is one alias shorter and has the same end. -/
theorem CanInline.evalWord_eq (h : m.CanInline word)
    (hbody : m.dictionary.aliasOf? word = some body) : m.evalWord body = m.evalWord word := by
  obtain ⟨n, hn, last, hends⟩ := h.exists_end
  obtain ⟨k, rfl, hends'⟩ := hends.exists_succ hbody
  rw [evalWord, evalWord, evalWithin_of_chainEnds hends hn,
    evalWithin_of_chainEnds hends' (Nat.le_of_succ_le hn)]

theorem CanInline.isPlainWord (h : m.CanInline word) (hworded : m.dictionary.WellWorded)
    (hbody : m.dictionary.aliasOf? word = some body) : IsPlainWord body := by
  obtain ⟨body', hbody', hlength⟩ := h.exists_body
  obtain rfl : body' = body := Option.some.inj (hbody'.symm.trans hbody)
  obtain ⟨ws, hws, rfl⟩ := hworded.exists_words_of_alias hbody
  rw [words_joinWords fun w hw => (hws w hw).1] at hlength
  obtain ⟨w, rfl⟩ := List.length_eq_one_iff.mp hlength
  rw [joinWords_singleton]
  exact hws w List.mem_cons_self

theorem Inlines.isPlainWord {word' : String} (h : m.Inlines word word')
    (hworded : m.dictionary.WellWorded) (hword : IsPlainWord word) : IsPlainWord word' := by
  rcases h with rfl | ⟨hinline, hbody⟩
  · exact hword
  · exact hinline.isPlainWord hworded hbody

theorem Inlines.of_eq {word' : String} (h : m.Inlines word word')
    (hdictionary : here.dictionary = m.dictionary) (hdepth : here.maxDepth = m.maxDepth) :
    here.Inlines word word' := by
  rcases h with rfl | ⟨hinline, hbody⟩
  · exact Or.inl rfl
  · refine Or.inr ⟨⟨?_, ?_⟩, ?_⟩
    · rw [hdictionary]
      exact hinline.exists_body
    · rw [hdictionary, hdepth]
      exact hinline.exists_end
    · rw [hdictionary]
      exact hbody

theorem Inlines.evalWord_eq {word' : String} (h : m.Inlines word word') :
    m.evalWord word' = m.evalWord word := by
  rcases h with rfl | ⟨hinline, hbody⟩
  · rfl
  · exact hinline.evalWord_eq hbody

end Machine

/-- Runs over two lists of items are the same if items at the same place do the same on all machines
with a property that the items keep. -/
theorem Action.run_untilBye_congr {α : Type} {act : α → Action Flow} {P : Machine → Prop}
    {items items' : List α}
    (h : List.Forall₂ (fun x y => (act x).Keeps P ∧ ∀ m o, P m → (act y).run m o = (act x).run m o)
      items items') {m : Machine} (hm : P m) (o : Outlet) :
    (untilBye act items').run m o = (untilBye act items).run m o := by
  induction h generalizing m o with
  | nil => rfl
  | @cons x y xs ys hxy hrest ih =>
    obtain ⟨hkeeps, heq⟩ := hxy
    have hfirst := heq m o hm
    by_cases hproceed : ((act x).run m o).result = .ok .proceed
    · obtain ⟨here, left, bytes, hrun⟩ := exists_run_of_result hproceed
      have hhere := hkeeps m o hm
      rw [hrun] at hfirst hhere
      rw [run_untilBye_cons_of_proceed hrun, run_untilBye_cons_of_proceed hfirst, ih hhere]
    · have hstop : ((act y).run m o).result ≠ .ok .proceed := by rwa [hfirst]
      rw [run_untilBye_cons_of_stop hproceed, run_untilBye_cons_of_stop hstop, hfirst]

namespace Machine

variable {m : Machine} {tokens tokens' : List String}

/-- Plain words leave the dictionary as it is, so that what may be inlined stays the same up to the
end of the line. -/
theorem run_evalTokens_inlined (hworded : m.dictionary.WellWorded)
    (htokens : List.Forall₂ m.Inlines tokens tokens') (hplain : ∀ t ∈ tokens, IsPlainWord t)
    (o : Outlet) : (evalTokens tokens').run m o = (evalTokens tokens).run m o := by
  apply run_untilBye_congr (P := fun here =>
    here.dictionary = m.dictionary ∧ here.maxDepth = m.maxDepth) _ ⟨rfl, rfl⟩
  refine ((List.forall₂_and_left tokens tokens').mpr ⟨hplain, htokens⟩).imp ?_
  rintro token token' ⟨htoken, hinlines⟩
  constructor
  · apply keeps_evalToken
    rintro here ⟨hdictionary, hdepth⟩
    rw [← hdictionary] at hworded ⊢
    rw [← hdepth]
    exact ⟨dictionary_evalWithin hworded htoken.opener_notMem_words here.maxDepth,
      maxDepth_evalWithin here here.maxDepth token⟩
  · rintro here o ⟨hdictionary, hdepth⟩
    simp only [evalToken, (hinlines.of_eq hdictionary hdepth).evalWord_eq]

theorem matches_inlined (hworded : m.dictionary.WellWorded) {line run : String}
    (hrun : run ∈ runs line) {choice : Bool} (hchoice : choice = true → m.CanInline run) :
    Matches m.Inlines run (if choice then (m.dictionary.aliasOf? run).getD run else run) := by
  have hkept : Matches m.Inlines run run := by
    rcases isGap_or_isWord_of_mem_runs hrun with hgap | hword
    · exact Or.inl ⟨hgap, hgap⟩
    · exact Or.inr ⟨hword, hword, Or.inl rfl⟩
  cases choice with
  | false => exact hkept
  | true =>
    cases hbody : m.dictionary.aliasOf? run with
    | none => exact hkept
    | some body =>
      have hname := hworded.isPlainWord_name run body (Dictionary.lookup?_of_aliasOf? hbody)
      have hinline := hchoice rfl
      exact Or.inr ⟨hname.1, (hinline.isPlainWord hworded hbody).1, Or.inr ⟨hinline, hbody⟩⟩

theorem forall₂_words_inlined (hworded : m.dictionary.WellWorded) {line : String}
    {chosen : Nat → Bool}
    (hchosen : ∀ i run, chosen i = true → (runs line)[i]? = some run → m.CanInline run) :
    List.Forall₂ m.Inlines (words line) (words (m.dictionary.inlined chosen line)) := by
  have hpieces : List.Forall₂ (Matches m.Inlines) (runs line)
      ((runs line).mapIdx fun i run =>
        if chosen i then (m.dictionary.aliasOf? run).getD run else run) := by
    rw [List.forall₂_iff_get]
    refine ⟨by rw [List.length_mapIdx], ?_⟩
    intro i hi hi'
    simp only [List.get_eq_getElem, List.getElem_mapIdx]
    apply matches_inlined hworded (List.getElem_mem hi)
    intro hi''
    exact hchosen i _ hi'' (List.getElem?_eq_getElem hi)
  have hwords := forall₂_words_join hpieces (isChain_runs line)
  rwa [join_runs] at hwords

theorem isPlainWord_of_inlined (hworded : m.dictionary.WellWorded)
    (htokens : List.Forall₂ m.Inlines tokens tokens') (hplain : ∀ t ∈ tokens, IsPlainWord t) :
    ∀ t ∈ tokens', IsPlainWord t := by
  have hboth := ((List.forall₂_and_left tokens tokens').mpr ⟨hplain, htokens⟩).flip
  have hinlined : List.Forall₂ (fun t' t => IsPlainWord t' ∧ m.Inlines t t') tokens' tokens := by
    apply hboth.imp
    rintro token' token ⟨htoken, hinlines⟩
    exact ⟨hinlines.isPlainWord hworded htoken, hinlines⟩
  exact ((List.forall₂_and_left tokens' tokens).mp hinlined).1

/-- Wherever lines have led to, a line without a clause does the same when the bodies of any of its
words are written for them, provided that each of these bodies is one word and that the machine
follows the chains of these words to their ends. -/
theorem interpretLine_inlined {maxDepth : Nat} (h : Reached maxDepth m) {line : String}
    (hplain : ∀ w ∈ words line, isPlain w = true) {chosen : Nat → Bool}
    (hchosen : ∀ i run, chosen i = true → (runs line)[i]? = some run → m.CanInline run)
    (o : Outlet) :
    (interpretLine (m.dictionary.inlined chosen line)).run m o = (interpretLine line).run m o := by
  have hworded := h.wellWorded
  have hwords := forall₂_words_inlined hworded hchosen
  have hwordsPlain : ∀ w ∈ words line, IsPlainWord w :=
    fun w hw => isPlainWord_of_mem_words hw (hplain w hw)
  have hinlinedPlain : ∀ w ∈ words (m.dictionary.inlined chosen line), isPlain w = true :=
    fun w hw => ((isPlainWord_iff w).mp (isPlainWord_of_inlined hworded hwords hwordsPlain w hw)).2
  rw [run_interpretLine (foldClause_of_plain hplain),
    run_interpretLine (foldClause_of_plain hinlinedPlain),
    run_evalTokens_inlined hworded hwords hwordsPlain]

/-- One of two aliases is written out, and `test` is left as it is. Both lines print the sum and
fail at the last word. -/
theorem interpretLine_inlined_total :
    let m := (fresh 64).afterLines [(": sum test ;", .endless), (": total sum ;", .endless)]
    let line := "40\t2  total . test"
    let chosen : Nat → Bool := (· == 4)
    Reached 64 m ∧ (∀ w ∈ words line, isPlain w = true) ∧ (runs line)[4]? = some "total" ∧
      m.CanInline "total" ∧ m.dictionary.inlined chosen line = "40\t2  sum . test" ∧
      (interpretLine "40\t2  sum . test").run m .endless = (interpretLine line).run m .endless ∧
      ((interpretLine line).run m .endless).written = Utf8.encode "42stack underflow\n" := by
  intro m line chosen
  have hreached : Reached 64 m :=
    .afterLines [(": sum test ;", .endless), (": total sum ;", .endless)]
  have hplain : ∀ w ∈ words line, isPlain w = true := by decide
  have hrun : (runs line)[4]? = some "total" := by decide
  have hcan : m.CanInline "total" :=
    ⟨⟨"sum", rfl, by decide⟩, 3, show 3 ≤ 64 by decide, "+", rfl, rfl⟩
  have hinlined : m.dictionary.inlined chosen line = "40\t2  sum . test" := by decide
  have hchosen : ∀ i run, chosen i = true → (runs line)[i]? = some run → m.CanInline run := by
    intro i run hi hget
    obtain rfl : i = 4 := beq_iff_eq.mp hi
    obtain rfl := Option.some.inj (hrun.symm.trans hget)
    exact hcan
  have hsame := interpretLine_inlined hreached hplain hchosen .endless
  rw [hinlined] at hsame
  exact ⟨hreached, hplain, hrun, hcan, hinlined, hsame, by decide⟩

end Machine

end ColonForth
