import ColonForth.Proofs.Session.Invariant
import ColonForth.Proofs.Session.Telling
import ColonForth.Proofs.Word.Clause

/-! Two lines in one, with one report at the end. -/
namespace ColonForth
open Text
open ColonForth.Action

theorem run_interpretLine {line : String} {tokens : List String}
    (h : foldClause (words line) = .ok tokens) (m : Machine) (o : Outlet) :
    (interpretLine line).run m o =
      let done := (evalTokens tokens).run m o
      let last := (report done.result).run done.machine done.outlet
      ⟨last.machine, last.outlet, done.written ++ last.written, last.result⟩ := by
  rw [interpretLine_of_tokens h]
  rfl

theorem run_interpretLine_joinWords {xs tokens : List String} (hxs : ∀ w ∈ xs, IsWord w)
    (h : foldClause xs = .ok tokens) (m : Machine) (o : Outlet) :
    (interpretLine (joinWords xs)).run m o =
      let done := (evalTokens tokens).run m o
      let last := (report done.result).run done.machine done.outlet
      ⟨last.machine, last.outlet, done.written ++ last.written, last.result⟩ := by
  rw [← words_joinWords hxs] at h
  exact run_interpretLine h m o

theorem words_joined {xs ys : List String} (hxs : ∀ w ∈ xs, IsWord w) (hys : ∀ w ∈ ys, IsWord w) :
    words (joinWords xs ++ " " ++ joinWords ys) = xs ++ ys := by
  have hblank : words (joinWords xs ++ String.singleton ' ' ++ joinWords ys) =
      words (joinWords xs) ++ words (joinWords ys) := words_append_blank isBlank_space
  rw [words_joinWords hxs, words_joinWords hys] at hblank
  exact hblank

/-- Two lines of which one at most has a clause, written as one line. If the tokens of the first one
let it proceed, the one line writes what they write and then what the second line does on the
machine that they leave, and it ends as the second line. Else it is the first line that is
interpreted. -/
theorem interpretLine_joined {xs ys xs' ys' : List String} (hxs : ∀ w ∈ xs, IsWord w)
    (hys : ∀ w ∈ ys, IsWord w) (hxs' : foldClause xs = .ok xs') (hys' : foldClause ys = .ok ys')
    (hopener : ¬ (opener ∈ xs ∧ opener ∈ ys)) (m : Machine) :
    let first := (interpretLine (joinWords xs)).run m .endless
    let joined := (interpretLine (joinWords xs ++ " " ++ joinWords ys)).run m .endless
    (((evalTokens xs').run m .endless).result = .ok .proceed →
      let second := (interpretLine (joinWords ys)).run first.machine .endless
      ∃ said, first.written = said ++ Utf8.encode " ok\n" ∧
        joined = ⟨second.machine, second.outlet, said ++ second.written, second.result⟩) ∧
      (((evalTokens xs').run m .endless).result ≠ .ok .proceed → joined = first) := by
  intro first joined
  have hfirst : first = _ := run_interpretLine_joinWords hxs hxs' m .endless
  have hjoined : joined = _ := run_interpretLine
    ((words_joined hxs hys).symm ▸ foldClause_append hxs' hys' hopener) m .endless
  constructor
  · intro hproceed second
    obtain ⟨here, said, result, htokens, -⟩ := tells_evalTokens_isRecoverable xs' m trivial
    rw [htokens] at hproceed
    obtain rfl : result = .ok .proceed := hproceed
    have hreported : first =
        ⟨here, .endless, Utf8.encode said ++ Utf8.encode " ok\n", .ok .proceed⟩ := by
      rw [hfirst, htokens]
      rfl
    have hsecond : second = _ := run_interpretLine_joinWords hys hys' first.machine .endless
    refine ⟨Utf8.encode said, by rw [hreported], ?_⟩
    rw [hjoined, hsecond, hreported, evalTokens, run_untilBye_append htokens]
    simp only [List.append_assoc]
    rfl
  · intro hstop
    rw [hjoined, hfirst, evalTokens, run_untilBye_append_of_stop hstop, evalTokens]

theorem interpretLine_joined_clause :
    let m := Machine.fresh 64
    let clause := [":", "x", "3", ";"]
    let use := ["x", "."]
    (∀ w ∈ clause, IsWord w) ∧ (∀ w ∈ use, IsWord w) ∧ foldClause clause = .ok [": x 3 ;"] ∧
      foldClause use = .ok use ∧ opener ∉ use ∧
      (interpretLine (joinWords clause ++ " " ++ joinWords use)).run m .endless =
        ⟨{ m with dictionary := m.dictionary.define "x" "3" }, .endless, Utf8.encode "3 ok\n",
          .ok .proceed⟩ ∧
      (interpretLine (joinWords use ++ " " ++ joinWords clause)).run m .endless =
        ⟨m, .endless, Utf8.encode "x ?\n", .ok .proceed⟩ := by
  have hclause : ∀ w ∈ [":", "x", "3", ";"], IsWord w := by
    have hwords : words ": x 3 ;" = [":", "x", "3", ";"] := rfl
    exact fun w hw => isWord_of_mem_words (hwords ▸ hw)
  have huse : ∀ w ∈ ["x", "."], IsWord w := by
    have hwords : words "x ." = ["x", "."] := rfl
    exact fun w hw => isWord_of_mem_words (hwords ▸ hw)
  have hclause' : foldClause [":", "x", "3", ";"] = .ok [": x 3 ;"] := rfl
  have huse' : foldClause ["x", "."] = .ok ["x", "."] := rfl
  have hopener : opener ∉ ["x", "."] := by decide
  refine ⟨hclause, huse, hclause', huse', hopener, ?_, ?_⟩
  · have hproceed : ((evalTokens [": x 3 ;"]).run (.fresh 64) .endless).result = .ok .proceed := rfl
    obtain ⟨said, hsaid, hrun⟩ := (interpretLine_joined hclause huse hclause' huse'
      (fun h => hopener h.2) (.fresh 64)).1 hproceed
    have hfirst : (interpretLine (joinWords [":", "x", "3", ";"])).run (.fresh 64) .endless =
        ⟨⟨.empty, Dictionary.seeded.define "x" "3", 64⟩, .endless, Utf8.encode " ok\n",
          .ok .proceed⟩ := run_interpretLine_joinWords hclause hclause' (.fresh 64) .endless
    have hsecond : (interpretLine (joinWords ["x", "."])).run
        ⟨.empty, Dictionary.seeded.define "x" "3", 64⟩ .endless =
          ⟨⟨.empty, Dictionary.seeded.define "x" "3", 64⟩, .endless, Utf8.encode "3 ok\n",
            .ok .proceed⟩ := run_interpretLine_joinWords huse huse' _ .endless
    rw [hfirst] at hsaid hrun
    obtain rfl : said = [] := List.self_eq_append_left.mp hsaid
    rw [hsecond] at hrun
    exact hrun
  · have hresult : ((evalTokens ["x", "."]).run (.fresh 64) .endless).result =
        .error (.unknownToken "x") := rfl
    have hstop : ((evalTokens ["x", "."]).run (.fresh 64) .endless).result ≠ .ok .proceed := by
      simp [hresult]
    have hfirst : (interpretLine (joinWords ["x", "."])).run (.fresh 64) .endless =
        ⟨.fresh 64, .endless, Utf8.encode "x ?\n", .ok .proceed⟩ :=
      run_interpretLine_joinWords huse huse' (.fresh 64) .endless
    have hrun := (interpretLine_joined huse hclause huse' hclause' (fun h => hopener h.1)
      (.fresh 64)).2 hstop
    exact hrun.trans hfirst

end ColonForth
