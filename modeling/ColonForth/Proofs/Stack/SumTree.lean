import ColonForth.Proofs.Session.ReadBack
import ColonForth.Proofs.Text.Runs

/-! Sums of any shape, with a `+` behind each two operands. -/
namespace ColonForth
open Text
open ColonForth.Action

inductive SumTree where
  | numeral (text : String) (h : (Numeral.read? text).isSome)
  | sum (left right : SumTree)

namespace SumTree

def value : SumTree → Int
  | numeral text h => (Numeral.read? text).get h
  | sum left right => left.value + right.value

def numerals : SumTree → List String
  | numeral text _ => [text]
  | sum left right => left.numerals ++ right.numerals

/-- Both operands come before the `+` that adds them. -/
def tokens : SumTree → List String
  | numeral text _ => [text]
  | sum left right => left.tokens ++ (right.tokens ++ ["+"])

theorem isPlainWord_of_mem_tokens (t : SumTree) : ∀ token ∈ t.tokens, IsPlainWord token := by
  induction t with
  | numeral text h =>
    obtain ⟨n, hn⟩ := Option.isSome_iff_exists.mp h
    intro token htoken
    obtain rfl := List.mem_singleton.mp htoken
    exact (isPlainWord_iff token).mpr ⟨Numeral.isWord_of_read? hn, Numeral.isPlain_of_read? hn⟩
  | sum left right hleft hright =>
    intro token htoken
    rw [tokens, List.mem_append, List.mem_append, List.mem_singleton] at htoken
    rcases htoken with htoken | htoken | rfl
    · exact hleft token htoken
    · exact hright token htoken
    · exact (isPlainWord_iff "+").mpr ⟨Builtin.isWord_name .add, by decide⟩

end SumTree

theorem run_evalToken_add (m : Machine) (s : Stack) (left right : Int) (o : Outlet) :
    (evalToken "+").run { m with stack := (s.push left).push right } o =
      ⟨{ m with stack := s.push (left + right) }, o, [], .ok .proceed⟩ := by
  have hword : Machine.evalWord { m with stack := (s.push left).push right } "+" =
      ⟨{ m with stack := s.push (left + right) }, [], .ok .proceed⟩ :=
    Machine.evalWithin_name _ m.maxDepth .add
  simp only [evalToken, hword]
  rfl

theorem run_evalTokens_sumTree (t : SumTree) {m : Machine}
    (hfree : ∀ text ∈ t.numerals, m.dictionary.lookup? text = none) (o : Outlet) :
    (evalTokens t.tokens).run m o =
      ⟨{ m with stack := m.stack.push t.value }, o, [], .ok .proceed⟩ := by
  -- The stack is general, since the left operand lies below the right one while that is evaluated.
  induction t generalizing m with
  | numeral text h =>
    have hread : Numeral.read? text = some ((Numeral.read? text).get h) := (Option.some_get h).symm
    exact run_evalTokens_numerals (.cons hread .nil) hfree o
  | sum left right hleft hright =>
    obtain ⟨hfreeLeft, hfreeRight⟩ := List.forall_mem_append.mp hfree
    have hrunLeft := hleft hfreeLeft
    have hrunRight := hright (m := { m with stack := m.stack.push left.value }) hfreeRight
    have hadd := run_evalToken_add m m.stack left.value right.value o
    rw [SumTree.tokens, evalTokens, run_untilBye_append hrunLeft, run_untilBye_append hrunRight,
      run_untilBye_cons_of_proceed hadd]
    rfl

/-- A line with the tokens of a tree puts the value of the tree on top of the stack and does nothing
else, provided that no numeral of the tree is the name of an entry. -/
theorem interpretLine_sumTree (t : SumTree) {m : Machine}
    (hfree : ∀ text ∈ t.numerals, m.dictionary.lookup? text = none) {line : String}
    (hline : Spaced t.tokens line) :
    (interpretLine line).run m .endless =
      ⟨{ m with stack := m.stack.push t.value }, .endless, Utf8.encode " ok\n", .ok .proceed⟩ := by
  have hwords : words line = t.tokens :=
    hline.words_eq fun token htoken => (t.isPlainWord_of_mem_tokens token htoken).1
  have htokens : foldClause (words line) = .ok t.tokens := by
    rw [hwords]
    apply foldClause_of_plain
    exact fun token htoken =>
      ((isPlainWord_iff token).mp (t.isPlainWord_of_mem_tokens token htoken)).2
  rw [run_interpretLine htokens, run_evalTokens_sumTree t hfree]
  rfl

theorem interpretLine_sumTree_nested :
    let t : SumTree := .sum (.numeral "0x10" rfl) (.sum (.numeral "-3" rfl) (.numeral "007" rfl))
    let m : Machine := ⟨⟨[5]⟩, Dictionary.seeded.define "+" "0", 0⟩
    let line := "0x10 -3\t007 + +\n"
    (∀ text ∈ t.numerals, m.dictionary.lookup? text = none) ∧ Spaced t.tokens line ∧
      (interpretLine line).run m .endless =
        ⟨⟨⟨[20, 5]⟩, m.dictionary, 0⟩, .endless, Utf8.encode " ok\n", .ok .proceed⟩ := by
  intro t m line
  have hfree : ∀ text ∈ t.numerals, m.dictionary.lookup? text = none := by decide
  have hspace : IsGap " " := isGap_singleton isBlank_space
  have htab : IsGap "\t" := isGap_singleton (c := '\t') (by decide)
  have hnewline : IsGap "\n" := isGap_singleton isBlank_newline
  have hends : Spaced ["+", "+"] ("+" ++ (" " ++ ("+" ++ ("\n" ++ "")))) :=
    .text "+" (hspace.endsWord_append _)
      (.gap " " hspace (.text "+" (hnewline.endsWord_append _) (.gap "\n" hnewline .nil)))
  have hline : Spaced t.tokens ("0x10" ++ (" " ++ ("-3" ++ ("\t" ++ ("007" ++ (" " ++
      ("+" ++ (" " ++ ("+" ++ ("\n" ++ "")))))))))) :=
    .text "0x10" (hspace.endsWord_append _) (.gap " " hspace
      (.text "-3" (htab.endsWord_append _) (.gap "\t" htab
        (.text "007" (hspace.endsWord_append _) (.gap " " hspace hends)))))
  exact ⟨hfree, hline, interpretLine_sumTree t hfree hline⟩

end ColonForth
