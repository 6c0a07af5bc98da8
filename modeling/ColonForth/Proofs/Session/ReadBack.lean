import ColonForth.Proofs.Alias.Chain
import ColonForth.Proofs.Session.JoinedLines
import ColonForth.Proofs.Word.Numeral
import Mathlib.Data.List.Forall2

/-! The listing of the stack as input: its numerals build the stack again. -/
namespace ColonForth
open Text
open ColonForth.Action

namespace Stack

def pushAll (s : Stack) (ns : List Int) : Stack :=
  ns.foldl push s

theorem cells_pushAll (s : Stack) (ns : List Int) : (s.pushAll ns).cells = s.cells ++ ns := by
  induction ns generalizing s with
  | nil => rw [List.append_nil, pushAll, List.foldl_nil]
  | cons n ns ih =>
    have hrest : s.pushAll (n :: ns) = (s.push n).pushAll ns := rfl
    rw [hrest, ih, cells_push, List.append_assoc, List.singleton_append]

theorem cells_injective : Function.Injective cells := by
  rintro ⟨xs⟩ ⟨ys⟩ h
  have hcells : xs = ys := List.reverse_injective h
  rw [hcells]

theorem pushAll_empty_cells (s : Stack) : empty.pushAll s.cells = s := by
  apply cells_injective
  rw [cells_pushAll, cells_empty, List.nil_append]

end Stack

variable {m : Machine} {texts : List String} {ns : List Int}

/-- No entry of the dictionary hides the numeral, so it is pushed. -/
theorem Machine.evalWord_of_read? {text : String} {n : Int} (hread : Numeral.read? text = some n)
    (hfree : m.dictionary.lookup? text = none) :
    m.evalWord text = ⟨{ m with stack := m.stack.push n }, [], .ok .proceed⟩ :=
  evalWithin_literal ⟨Numeral.ne_name_of_read? hread, hfree⟩ (Numeral.ne_colon_of_read? hread)
    hread m.maxDepth

/-- Nothing is written for a numeral, so every outlet will do. -/
theorem run_evalTokens_numerals
    (hread : List.Forall₂ (fun text n => Numeral.read? text = some n) texts ns)
    (hfree : ∀ text ∈ texts, m.dictionary.lookup? text = none) (o : Outlet) :
    (evalTokens texts).run m o =
      ⟨{ m with stack := m.stack.pushAll ns }, o, [], .ok .proceed⟩ := by
  induction hread generalizing m with
  | nil => rfl
  | @cons text n texts ns htext hread ih =>
    have hword := Machine.evalWord_of_read? htext (hfree text List.mem_cons_self)
    have htoken : (evalToken text).run m o =
        ⟨{ m with stack := m.stack.push n }, o, [], .ok .proceed⟩ := by
      simp only [evalToken, hword]
      rfl
    have hrest : ∀ later ∈ texts,
        ({ m with stack := m.stack.push n } : Machine).dictionary.lookup? later = none :=
      fun later hlater => hfree later (List.mem_cons_of_mem text hlater)
    rw [evalTokens, run_untilBye_cons_of_proceed htoken, ← evalTokens, ih hrest]
    rfl

theorem run_interpretLine_numerals
    (hread : List.Forall₂ (fun text n => Numeral.read? text = some n) texts ns)
    (hfree : ∀ text ∈ texts, m.dictionary.lookup? text = none) {line : String}
    (hline : words line = texts) :
    (interpretLine line).run m .endless =
      ⟨{ m with stack := m.stack.pushAll ns }, .endless, Utf8.encode " ok\n", .ok .proceed⟩ := by
  have hplain : ∀ text ∈ texts, isPlain text = true :=
    ((List.forall₂_and_left texts ns).mp
      (hread.imp fun text n htext => ⟨Numeral.isPlain_of_read? htext, htext⟩)).1
  have htokens : foldClause (words line) = .ok texts := by
    rw [hline]
    exact foldClause_of_plain hplain
  rw [run_interpretLine htokens, run_evalTokens_numerals hread hfree]
  rfl

theorem words_join_spaced {ws : List String} (h : ∀ w ∈ ws, IsWord w) :
    words (String.join (ws.map (· ++ " "))) = ws := by
  induction ws with
  | nil => exact words_empty
  | cons w ws ih =>
    have hrest := ih fun v hv => h v (List.mem_cons_of_mem w hv)
    have hblank : words (w ++ String.singleton ' ' ++ String.join (ws.map (· ++ " "))) =
        words w ++ words (String.join (ws.map (· ++ " "))) := words_append_blank isBlank_space
    rw [words_of_isWord (h w List.mem_cons_self), hrest] at hblank
    rw [List.map_cons, String.join_cons]
    exact hblank

theorem isWord_size (s : Stack) : IsWord ("<" ++ s.size.repr ++ ">") := by
  have hsize : IsWord s.size.repr := Numeral.isWord_of_read? (Numeral.read?_decimal s.size)
  refine ⟨by simp, ?_⟩
  intro c hc
  simp only [String.toList_append, List.mem_append] at hc
  rcases hc with (hc | hc) | hc
  · obtain rfl : c = '<' := by simpa using hc
    decide
  · exact hsize.2 c hc
  · obtain rfl : c = '>' := by simpa using hc
    decide

/-- Every item of the listing is one word. -/
theorem words_listing (s : Stack) :
    words (String.join s.listing) =
      ("<" ++ s.cells.length.repr ++ ">") :: s.cells.map Numeral.decimal := by
  have hspaced : s.listing =
      (("<" ++ s.cells.length.repr ++ ">") :: s.cells.map Numeral.decimal).map (· ++ " ") := by
    simp [Stack.listing, Stack.length_cells, Function.comp_def, String.append_assoc]
  rw [hspaced]
  apply words_join_spaced
  intro w hw
  rcases List.mem_cons.mp hw with rfl | hw
  · rw [Stack.length_cells]
    exact isWord_size s
  · obtain ⟨n, -, rfl⟩ := List.mem_map.mp hw
    exact Numeral.isWord_of_read? (Numeral.read?_decimal n)

/-- `.s` leaves the machine alone and lists the size and then a numeral of each cell. On an empty
stack, the numerals build the stack again wherever none of them is the name of an entry. -/
theorem listing_reads_back (m : Machine) :
    let cells := m.stack.cells
    let texts := cells.map Numeral.decimal
    ∃ text, (evalToken ".s").run m .endless = ⟨m, .endless, Utf8.encode text, .ok .proceed⟩ ∧
      words text = ("<" ++ cells.length.repr ++ ">") :: texts ∧
      List.Forall₂ (fun text n => Numeral.read? text = some n) texts cells ∧
      words (joinWords texts) = texts ∧
      (∀ other : Machine, other.stack = .empty →
        (∀ text ∈ texts, other.dictionary.lookup? text = none) →
        ∀ line, words line = texts →
          (interpretLine line).run other .endless =
            ⟨{ other with stack := m.stack }, .endless, Utf8.encode " ok\n", .ok .proceed⟩) ∧
      ∀ n, Numeral.read? (Numeral.decimal n) = some n := by
  intro cells texts
  have hread : List.Forall₂ (fun text n => Numeral.read? text = some n) texts cells := by
    rw [List.forall₂_map_left_iff, List.forall₂_same]
    exact fun n _ => Numeral.read?_decimal n
  have hwords : ∀ text ∈ texts, IsWord text := by
    intro text htext
    obtain ⟨n, -, rfl⟩ := List.mem_map.mp htext
    exact Numeral.isWord_of_read? (Numeral.read?_decimal n)
  refine ⟨String.join m.stack.listing, ?_, words_listing m.stack, hread, words_joinWords hwords, ?_,
    Numeral.read?_decimal⟩
  · rw [run_evalToken_endless, show ".s" = Builtin.printStack.name from rfl, Machine.evalWord,
      Machine.evalWithin_name]
    rfl
  · intro other hempty hfree line hline
    rw [run_interpretLine_numerals hread hfree hline, hempty, Stack.pushAll_empty_cells]

example : ((evalToken ".s").run ⟨⟨[-7, 0]⟩, .seeded, 64⟩ .endless).written =
    Utf8.encode "<2> 0 -7 " := by
  decide

end ColonForth
