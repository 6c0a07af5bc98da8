import ColonForth.Proofs.Alias.Chain
import ColonForth.Proofs.Session.Invariant
import ColonForth.Proofs.Word.Folding
import ColonForth.Proofs.Word.Numeral

/-! The dictionaries that lines of input lead to. Only the clause of a line defines a word then,
since no word that stands for a body can come to a clause. -/
namespace ColonForth
open Text

/-- Names are plain words, and bodies are plain words with single spaces between them. -/
structure Dictionary.WellWorded (d : Dictionary) : Prop where
  isPlainWord_name : ∀ name body, d.lookup? name = some body → IsPlainWord name
  body_eq_joinWords : ∀ name body, d.lookup? name = some body →
    ∃ ws, (∀ w ∈ ws, IsPlainWord w) ∧ body = joinWords ws

namespace Machine

/-- The machine after some lines, each of them reported to an outlet of its own. -/
def afterLines (m : Machine) : List (String × Outlet) → Machine
  | [] => m
  | (line, o) :: given => ((interpretLine line).run m o).machine.afterLines given

/-- A machine that lines of input lead to: it has taken some lines, and of one more line the tokens
`taken`. -/
inductive Reached (maxDepth : Nat) : Machine → Prop
  | afterLines (given : List (String × Outlet)) :
      Reached maxDepth ((fresh maxDepth).afterLines given)
  | withinLine (given : List (String × Outlet)) (line : String) (o : Outlet)
      (taken rest : List String) (h : foldClause (words line) = .ok (taken ++ rest)) :
      Reached maxDepth ((evalTokens taken).run ((fresh maxDepth).afterLines given) o).machine

end Machine

namespace Dictionary

theorem wellWorded_define {d : Dictionary} (h : d.WellWorded) {name : String} {ws : List String}
    (hname : IsPlainWord name) (hws : ∀ w ∈ ws, IsPlainWord w) :
    (d.define name (joinWords ws)).WellWorded := by
  constructor
  · intro other body hbody
    rw [lookup?_define] at hbody
    split at hbody
    · next heq => exact heq ▸ hname
    · exact h.isPlainWord_name other body hbody
  · intro other body hbody
    rw [lookup?_define] at hbody
    split at hbody
    · exact ⟨ws, hws, (Option.some.inj hbody).symm⟩
    · exact h.body_eq_joinWords other body hbody

theorem wellWorded_empty : empty.WellWorded := by
  constructor <;> intro name body hbody <;> cases hbody

theorem wellWorded_seeded : seeded.WellWorded := by
  have hname : IsPlainWord "test" := ⟨by decide, by decide, by decide⟩
  have hbody : ∀ w ∈ ["+"], IsPlainWord w := by
    intro w hw
    obtain rfl := List.mem_singleton.mp hw
    exact ⟨Builtin.isWord_name .add, by decide, by decide⟩
  exact wellWorded_define wellWorded_empty hname hbody

theorem WellWorded.exists_words_of_alias {d : Dictionary} (h : d.WellWorded) {word body : String}
    (halias : d.aliasOf? word = some body) :
    ∃ ws, (∀ w ∈ ws, IsPlainWord w) ∧ body = joinWords ws :=
  h.body_eq_joinWords word body (lookup?_of_aliasOf? halias)

theorem WellWorded.unclaimed {m : Machine} (h : m.dictionary.WellWorded) {word : String}
    (hword : ¬ IsWord word) : m.Unclaimed word := by
  constructor
  · rintro b rfl
    exact hword b.isWord_name
  · cases hl : m.dictionary.lookup? word with
    | none => rfl
    | some body => exact absurd (h.isPlainWord_name word body hl).1 hword

end Dictionary

namespace Machine

variable {m : Machine}

theorem ofClause_of_no_opener {clause : String} (h : opener ∉ words clause) :
    Definition.ofClause clause = .error (.malformedDefinition clause) := by
  cases hclause : Definition.ofClause clause with
  | error e => rw [Definition.ofClause_of_error hclause]
  | ok d =>
    obtain ⟨body, hencloses, -⟩ := (Definition.ofClause_eq_ok_iff clause d).mp hclause
    exact absurd hencloses.opener_mem h

theorem opener_notMem_words_joinWords {ws : List String} (h : ∀ w ∈ ws, IsPlainWord w) :
    opener ∉ words (joinWords ws) := by
  rw [words_joinWords fun w hw => (h w hw).1]
  intro hmem
  exact (h opener hmem).2.1 rfl

theorem opener_notMem_of_chain_succ (h : m.dictionary.WellWorded) {word later : String} {n : Nat}
    (hlater : m.dictionary.chain word (n + 1) = some later) : opener ∉ words later := by
  obtain ⟨before, -, halias⟩ := Dictionary.exists_alias_of_chain_succ hlater
  obtain ⟨ws, hws, rfl⟩ := h.exists_words_of_alias halias
  exact opener_notMem_words_joinWords hws

/-- From a text without the word `:` a chain leads to such texts only. -/
theorem opener_notMem_of_chain (h : m.dictionary.WellWorded) {word later : String}
    (hword : opener ∉ words word) {n : Nat} (hlater : m.dictionary.chain word n = some later) :
    opener ∉ words later := by
  cases n with
  | zero =>
    obtain rfl := Option.some.inj hlater
    exact hword
  | succ n => exact opener_notMem_of_chain_succ h hlater

theorem Acts.dictionary_eq {after : Machine} {word text : String} {result : Except Error Flow}
    (h : m.Acts word after text result) (hword : opener ∉ words word) :
    after.dictionary = m.dictionary := by
  cases h with
  | define rest d hfree hclause =>
    rw [ofClause_of_no_opener hword] at hclause
    cases hclause
  | bye | print | printNothing | printStack | add | addTooFew | malformed | literal | unknown => rfl

/-- No chain from a text without the word `:` comes to a definition. -/
theorem dictionary_evalWithin (h : m.dictionary.WellWorded) {word : String}
    (hword : opener ∉ words word) (budget : Nat) :
    (m.evalWithin budget word).machine.dictionary = m.dictionary := by
  rcases m.chainEnds_or_evalWithin_eq_failing budget word with
    ⟨n, hn, last, hends⟩ | ⟨later, -, hspent⟩
  · obtain ⟨after, text, result, hacts⟩ := exists_acts hends.2
    rw [evalWithin_of_chainEnds hends hn, (evalWithin_of_acts hacts m.maxDepth).1]
    exact hacts.dictionary_eq (opener_notMem_of_chain h hword hends.1)
  · rw [hspent]
    rfl

theorem define_clauseToken_cons (m : Machine) {name : String} {ws : List String}
    (hname : IsWord name) (hws : ∀ w ∈ ws, IsWord w) :
    m.define (clauseToken (name :: ws)) =
      ⟨{ m with dictionary := m.dictionary.define name (joinWords ws) }, [], .ok .proceed⟩ := by
  rw [define, clauseToken, List.cons_append, Definition.ofClause_joinWords hname hws]

theorem define_clauseToken_nil (m : Machine) :
    m.define (clauseToken []) = m.failing (.malformedDefinition (clauseToken [])) := by
  have hnone : Definition.ofWords? (words (clauseToken [])) = none := by
    rw [clauseToken, words_joinWords (isWord_of_mem_clause (List.forall_mem_nil IsWord))]
    rfl
  rw [define, Definition.ofClause, hnone]

/-- A clause gives a plain word a body of plain words, or nothing when no name stands in it. -/
theorem wellWorded_define_clauseToken (h : m.dictionary.WellWorded) {inner : List String}
    (hinner : ∀ w ∈ inner, IsPlainWord w) :
    (m.define (clauseToken inner)).machine.dictionary.WellWorded := by
  cases inner with
  | nil =>
    rw [define_clauseToken_nil]
    exact h
  | cons name ws =>
    have hws : ∀ w ∈ ws, IsPlainWord w := fun w hw => hinner w (List.mem_cons_of_mem name hw)
    have hname := hinner name List.mem_cons_self
    rw [define_clauseToken_cons m hname.1 fun w hw => (hws w hw).1]
    exact Dictionary.wellWorded_define h hname hws

theorem evalWithin_clauseToken (h : m.dictionary.WellWorded) (inner : List String) (budget : Nat) :
    m.evalWithin budget (clauseToken inner) = m.define (clauseToken inner) := by
  have hfree := h.unclaimed (not_isWord_clauseToken inner)
  rw [clauseToken_eq] at hfree ⊢
  exact evalWithin_colon hfree budget

theorem meaning_clauseToken (h : m.dictionary.WellWorded) (inner : List String) :
    m.meaning (clauseToken inner) = .definition := by
  have hfree := h.unclaimed (not_isWord_clauseToken inner)
  rw [clauseToken_eq] at hfree ⊢
  exact meaning_of_colon hfree

/-- Words of a line that are not its clause leave the dictionary alone. -/
theorem dictionary_evalWithin_token (h : m.dictionary.WellWorded) {line token : String}
    {tokens : List String} (htokens : foldClause (words line) = .ok tokens)
    (htoken : token ∈ tokens) (hclause : ¬ IsClauseOf token (words line)) (budget : Nat) :
    (m.evalWithin budget token).machine.dictionary = m.dictionary := by
  obtain ⟨hmem, hplain⟩ := mem_of_foldClause htokens htoken hclause
  exact dictionary_evalWithin h (isPlainWord_of_mem_words hmem hplain).opener_notMem_words budget

/-- The step of the invariant: every token of a line keeps the dictionary well worded. -/
theorem wellWorded_evalWord {line token : String} {tokens : List String}
    (htokens : foldClause (words line) = .ok tokens) (htoken : token ∈ tokens)
    (h : m.dictionary.WellWorded) : (m.evalWord token).machine.dictionary.WellWorded := by
  by_cases hclause : IsClauseOf token (words line)
  · obtain ⟨-, inner, hinner, rfl⟩ := hclause.exists_inner htokens
    rw [evalWord, evalWithin_clauseToken h]
    apply wellWorded_define_clauseToken h
    intro w hw
    exact isPlainWord_of_mem_words (hinner w hw).1 (hinner w hw).2
  · rw [evalWord, dictionary_evalWithin_token h htokens htoken hclause]
    exact h

theorem wellWorded_afterLines (h : m.dictionary.WellWorded) (given : List (String × Outlet)) :
    (m.afterLines given).dictionary.WellWorded := by
  induction given generalizing m with
  | nil => exact h
  | cons first given ih =>
    obtain ⟨line, o⟩ := first
    have hkeeps : (interpretLine line).Keeps fun m => m.dictionary.WellWorded :=
      keeps_interpretLine fun tokens htokens token htoken m h =>
        wellWorded_evalWord htokens htoken h
    exact ih (hkeeps m o h)

theorem Reached.wellWorded {maxDepth : Nat} (h : Reached maxDepth m) :
    m.dictionary.WellWorded := by
  have hfresh : (fresh maxDepth).dictionary.WellWorded := Dictionary.wellWorded_seeded
  cases h with
  | afterLines given => exact wellWorded_afterLines hfresh given
  | withinLine given line o taken rest htokens =>
    have hkeeps : (evalTokens taken).Keeps fun m => m.dictionary.WellWorded :=
      keeps_evalTokens fun token htoken m h =>
        wellWorded_evalWord htokens (List.mem_append_left rest htoken) h
    exact hkeeps _ o (wellWorded_afterLines hfresh given)

/-! ### Bodies that are not one word -/

/-- A text that is not one word has no meaning but the clause that it may look like. -/
theorem evalWithin_of_not_isWord (h : m.dictionary.WellWorded) {text : String}
    (hword : ¬ IsWord text) (hopener : opener ∉ words text) (budget : Nat) :
    m.evalWithin budget text = m.failing (.unknownToken text) ∨
      m.evalWithin budget text = m.failing (.malformedDefinition text) := by
  have hfree := h.unclaimed hword
  by_cases hcolon : ∃ rest, text = ":" ++ rest
  · right
    obtain ⟨rest, rfl⟩ := hcolon
    rw [evalWithin_colon hfree, define, ofClause_of_no_opener hopener]
  · left
    have hn : Numeral.read? text = none := by
      cases hread : Numeral.read? text with
      | none => rfl
      | some n => exact absurd (Numeral.isWord_of_read? hread) hword
    exact evalWithin_unknown hfree (fun rest hrest => hcolon ⟨rest, hrest⟩) hn budget

theorem aliasOf?_of_not_isWord (h : m.dictionary.WellWorded) {text : String}
    (hword : ¬ IsWord text) : m.dictionary.aliasOf? text = none := by
  cases halias : m.dictionary.aliasOf? text with
  | none => rfl
  | some body =>
    have hlookup := Dictionary.lookup?_of_aliasOf? halias
    exact absurd (h.isPlainWord_name text body hlookup).1 hword

/-- An alias of a body that is not one word does nothing but fail. -/
theorem evalWord_of_body (h : m.dictionary.WellWorded) {word body : String} {n : Nat} (hn : 0 < n)
    (hdepth : n ≤ m.maxDepth) (hbody : m.dictionary.chain word n = some body)
    (hlength : (words body).length ≠ 1) :
    m.evalWord word = m.failing (.unknownToken body) ∨
      m.evalWord word = m.failing (.malformedDefinition body) := by
  have hword : ¬ IsWord body := by
    intro hword
    rw [words_of_isWord hword] at hlength
    exact hlength rfl
  have hopener : opener ∉ words body := by
    obtain ⟨k, rfl⟩ := Nat.exists_eq_succ_of_ne_zero hn.ne'
    exact opener_notMem_of_chain_succ h hbody
  have hends : m.dictionary.ChainEnds word n body := ⟨hbody, aliasOf?_of_not_isWord h hword⟩
  rw [evalWord, evalWithin_of_chainEnds hends hdepth]
  exact evalWithin_of_not_isWord h hword hopener m.maxDepth

/-- Whatever lines were given and however they ended, the dictionary is well worded. So a clause is
never taken for an entry, a body that is not one word only fails, and a token that is not the clause
of its line defines nothing, however many aliases it leads through. -/
theorem reached_dictionary {maxDepth : Nat} (h : Reached maxDepth m) :
    m.dictionary.WellWorded ∧
      (∀ line tokens token, foldClause (words line) = .ok tokens →
        IsClauseOf token (words line) → token ∈ tokens ∧ m.meaning token = .definition) ∧
      (∀ word n body, 0 < n → n ≤ m.maxDepth → m.dictionary.chain word n = some body →
        (words body).length ≠ 1 →
        m.evalWord word = m.failing (.unknownToken body) ∨
          m.evalWord word = m.failing (.malformedDefinition body)) ∧
      ∀ line tokens token, foldClause (words line) = .ok tokens → token ∈ tokens →
        ¬ IsClauseOf token (words line) →
        ∀ budget, (m.evalWithin budget token).machine.dictionary = m.dictionary := by
  have hworded := h.wellWorded
  refine ⟨hworded, ?_, ?_, ?_⟩
  · intro line tokens token htokens hclause
    obtain ⟨hmem, inner, -, rfl⟩ := hclause.exists_inner htokens
    exact ⟨hmem, meaning_clauseToken hworded inner⟩
  · intro word n body hn hdepth hbody hlength
    exact evalWord_of_body hworded hn hdepth hbody hlength
  · intro line tokens token htokens htoken hclause budget
    exact dictionary_evalWithin_token hworded htokens htoken hclause budget

/-- After `: x :a b ;` the word `x` stands for a body that looks like a clause and is none. -/
theorem reached_dictionary_two_words :
    let m := (fresh 64).afterLines [(": x :a b ;", .endless)]
    Reached 64 m ∧ m.dictionary.chain "x" 1 = some ":a b" ∧ (words ":a b").length ≠ 1 ∧
      (m.evalWord "x" = m.failing (.unknownToken ":a b") ∨
        m.evalWord "x" = m.failing (.malformedDefinition ":a b")) := by
  intro m
  have hreached : Reached 64 m := .afterLines [(": x :a b ;", .endless)]
  have hchain : m.dictionary.chain "x" 1 = some ":a b" := rfl
  have hlength : (words ":a b").length ≠ 1 := by decide
  exact ⟨hreached, hchain, hlength, (reached_dictionary hreached).2.2.1 "x" 1 ":a b"
    Nat.one_pos (show 1 ≤ 64 by decide) hchain hlength⟩

end Machine

end ColonForth
