import ColonForth.Proofs.Dictionary.Reachable
import ColonForth.Proofs.Session.Failure
import Mathlib.Data.List.Induction

/-! The dictionary as the history of its definitions. -/
namespace ColonForth
open Text
open ColonForth.Action

namespace Machine

variable {m : Machine}

/-- The line executes a clause that gives the definition `d`: the line is accepted, the clause has a
name, and each token in front of it lets the line proceed. -/
def Executes (m : Machine) (line : String) (o : Outlet) (d : Definition) : Prop :=
  ∃ before name body after,
    words line = before ++ opener :: (name :: body ++ closer :: after) ∧
      (∃ tokens, foldClause (words line) = .ok tokens) ∧
      ((evalTokens before).run m o).result = .ok .proceed ∧ d = ⟨name, joinWords body⟩

/-- The line at `i` executes a clause, on the machine that the lines before it lead to. -/
def ExecutesAt (m : Machine) (given : List (String × Outlet)) (i : Nat) (d : Definition) : Prop :=
  ∃ line o, given[i]? = some (line, o) ∧ (m.afterLines (given.take i)).Executes line o d

/-- The last clause that the lines execute for `name` gives it `body`. -/
def LastWritten (m : Machine) (given : List (String × Outlet)) (name body : String) : Prop :=
  ∃ i, m.ExecutesAt given i ⟨name, body⟩ ∧
    ∀ j other, i < j → ¬ m.ExecutesAt given j ⟨name, other⟩

/-- The lines execute no clause for `name`. -/
def NeverWritten (m : Machine) (given : List (String × Outlet)) (name : String) : Prop :=
  ∀ i body, ¬ m.ExecutesAt given i ⟨name, body⟩

/-! ### The tokens of a line -/

theorem dictionary_evalTokens_plain (h : m.dictionary.WellWorded) {tokens : List String}
    (htokens : ∀ t ∈ tokens, IsPlainWord t) (o : Outlet) :
    ((evalTokens tokens).run m o).machine.dictionary = m.dictionary := by
  have hkeeps : (evalTokens tokens).Keeps fun after => after.dictionary = m.dictionary := by
    apply keeps_evalTokens
    intro token htoken after hafter
    rw [← hafter] at h ⊢
    exact dictionary_evalWithin h (htokens token htoken).opener_notMem_words after.maxDepth
  exact hkeeps m o rfl

theorem run_evalToken_clauseToken (h : m.dictionary.WellWorded) {name : String} {ws : List String}
    (hname : IsWord name) (hws : ∀ w ∈ ws, IsWord w) (o : Outlet) :
    (evalToken (clauseToken (name :: ws))).run m o =
      ⟨{ m with dictionary := m.dictionary.define name (joinWords ws) }, o, [], .ok .proceed⟩ := by
  have hword : m.evalWord (clauseToken (name :: ws)) = _ :=
    (evalWithin_clauseToken h (name :: ws) m.maxDepth).trans (define_clauseToken_cons m hname hws)
  simp only [evalToken, hword]
  rfl

theorem dictionary_evalTokens_clause (h : m.dictionary.WellWorded) {before ws after : List String}
    {name : String} (hbefore : ∀ t ∈ before, IsPlainWord t) (hname : IsPlainWord name)
    (hws : ∀ t ∈ ws, IsPlainWord t) (hafter : ∀ t ∈ after, IsPlainWord t) {o : Outlet}
    (hproceed : ((evalTokens before).run m o).result = .ok .proceed) :
    ((evalTokens (before ++ clauseToken (name :: ws) :: after)).run m o).machine.dictionary =
      m.dictionary.define name (joinWords ws) := by
  have hdictionary := dictionary_evalTokens_plain h hbefore o
  obtain ⟨here, left, bytes, hdone⟩ := exists_run_of_result hproceed
  rw [hdone] at hdictionary
  rw [← hdictionary] at h ⊢
  have hclause := run_evalToken_clauseToken h hname.1 (fun w hw => (hws w hw).1) left
  have hwritten := Dictionary.wellWorded_define h hname hws
  rw [evalTokens, run_untilBye_append hdone, run_untilBye_cons_of_proceed hclause]
  exact dictionary_evalTokens_plain hwritten hafter left

theorem dictionary_evalTokens_no_clause (h : m.dictionary.WellWorded)
    {before inner after : List String} (hbefore : ∀ t ∈ before, IsPlainWord t) {o : Outlet}
    (hnone : inner = [] ∨ ((evalTokens before).run m o).result ≠ .ok .proceed) :
    ((evalTokens (before ++ clauseToken inner :: after)).run m o).machine.dictionary =
      m.dictionary := by
  have hdictionary := dictionary_evalTokens_plain h hbefore o
  by_cases hproceed : ((evalTokens before).run m o).result = .ok .proceed
  · obtain rfl := hnone.resolve_right fun hstop => hstop hproceed
    obtain ⟨here, left, bytes, hdone⟩ := exists_run_of_result hproceed
    rw [hdone] at hdictionary
    rw [← hdictionary] at h ⊢
    have hfails : here.evalWord (clauseToken []) = _ :=
      (evalWithin_clauseToken h [] here.maxDepth).trans (define_clauseToken_nil here)
    have hclause := run_evalToken_of_failing hfails left
    have hstop : ((evalToken (clauseToken [])).run here left).result ≠ .ok .proceed := by
      simp [hclause]
    rw [evalTokens, run_untilBye_of_stop hdone hstop, hclause]
  · rw [evalTokens, run_untilBye_append_of_stop hproceed]
    exact hdictionary

/-! ### Lines -/

theorem isPlainWord_of_clause {line : String} {tokens before inner after : List String}
    (htokens : foldClause (words line) = .ok tokens)
    (hline : words line = before ++ opener :: (inner ++ closer :: after)) :
    (∀ t ∈ before, IsPlainWord t) ∧ (∀ t ∈ inner, IsPlainWord t) ∧
      (∀ t ∈ after, IsPlainWord t) ∧ tokens = before ++ clauseToken inner :: after := by
  have hmem : ∀ t, t ∈ before ∨ t ∈ inner ∨ t ∈ after → t ∈ words line := by
    intro t ht
    rw [hline]
    rcases ht with ht | ht | ht <;> simp [ht]
  rw [hline] at htokens
  obtain ⟨hbefore, hinner, hafter⟩ := plain_of_foldClause htokens
  rw [foldClause_of_clause hbefore hinner hafter] at htokens
  refine ⟨fun t ht => isPlainWord_of_mem_words (hmem t (Or.inl ht)) (hbefore t ht),
    fun t ht => isPlainWord_of_mem_words (hmem t (Or.inr (Or.inl ht))) (hinner t ht),
    fun t ht => isPlainWord_of_mem_words (hmem t (Or.inr (Or.inr ht))) (hafter t ht), ?_⟩
  exact (Except.ok.inj htokens).symm

theorem dictionary_of_executes (h : m.dictionary.WellWorded) {line : String} {o : Outlet}
    {d : Definition} (hd : m.Executes line o d) :
    ((interpretLine line).run m o).machine.dictionary = m.dictionary.define d.name d.body := by
  obtain ⟨before, name, ws, after, hline, ⟨tokens, htokens⟩, hproceed, rfl⟩ := hd
  obtain ⟨hbefore, hinner, hafter, rfl⟩ := isPlainWord_of_clause htokens hline
  rw [machine_interpretLine htokens]
  exact dictionary_evalTokens_clause h hbefore (hinner name List.mem_cons_self)
    (fun t ht => hinner t (List.mem_cons_of_mem name ht)) hafter hproceed

theorem dictionary_of_not_executes (h : m.dictionary.WellWorded) {line : String} {o : Outlet}
    (hnone : ∀ d, ¬ m.Executes line o d) :
    ((interpretLine line).run m o).machine.dictionary = m.dictionary := by
  cases htokens : foldClause (words line) with
  | error e => rw [machine_interpretLine_rejected htokens]
  | ok tokens =>
    rw [machine_interpretLine htokens]
    generalize hline : words line = ws at htokens
    cases (foldClause_eq_ok_iff _ _).mp htokens with
    | plain hplain =>
      apply dictionary_evalTokens_plain h
      intro t ht
      exact isPlainWord_of_mem_words (hline ▸ ht) (hplain t ht)
    | @clause before inner after =>
      rw [← hline] at htokens
      obtain ⟨hbefore, -, -, -⟩ := isPlainWord_of_clause htokens hline
      apply dictionary_evalTokens_no_clause h hbefore
      cases inner with
      | nil => exact Or.inl rfl
      | cons name ws =>
        right
        intro hproceed
        exact hnone ⟨name, joinWords ws⟩
          ⟨before, name, ws, after, hline, ⟨_, htokens⟩, hproceed, rfl⟩

/-- A line writes the body of the clause that it executes. -/
theorem lookup?_of_executes (h : m.dictionary.WellWorded) {line name body : String} {o : Outlet}
    (hd : m.Executes line o ⟨name, body⟩) :
    ((interpretLine line).run m o).machine.dictionary.lookup? name = some body := by
  rw [dictionary_of_executes h hd, Dictionary.lookup?_define, if_pos rfl]

theorem lookup?_of_not_executes (h : m.dictionary.WellWorded) {line name : String} {o : Outlet}
    (hnone : ∀ body, ¬ m.Executes line o ⟨name, body⟩) :
    ((interpretLine line).run m o).machine.dictionary.lookup? name =
      m.dictionary.lookup? name := by
  by_cases hd : ∃ d, m.Executes line o d
  · obtain ⟨d, hd⟩ := hd
    have hname : ¬ name = d.name := by
      rintro rfl
      exact hnone d.body hd
    rw [dictionary_of_executes h hd, Dictionary.lookup?_define, if_neg hname]
  · rw [dictionary_of_not_executes h fun d hexecutes => hd ⟨d, hexecutes⟩]

/-! ### Runs of lines -/

theorem afterLines_concat (m : Machine) (given : List (String × Outlet)) (line : String)
    (o : Outlet) :
    m.afterLines (given ++ [(line, o)]) =
      ((interpretLine line).run (m.afterLines given) o).machine := by
  induction given generalizing m with
  | nil => rfl
  | cons first given ih => exact ih _

theorem ExecutesAt.lt_length {given : List (String × Outlet)} {i : Nat} {d : Definition}
    (h : m.ExecutesAt given i d) : i < given.length := by
  obtain ⟨line, o, hget, -⟩ := h
  exact (List.getElem?_eq_some_iff.mp hget).1

/-- One more line leaves the clauses that have been executed as they are, and may execute one. -/
theorem executesAt_concat (m : Machine) (given : List (String × Outlet)) (line : String)
    (o : Outlet) (i : Nat) (d : Definition) :
    m.ExecutesAt (given ++ [(line, o)]) i d ↔
      m.ExecutesAt given i d ∨ i = given.length ∧ (m.afterLines given).Executes line o d := by
  constructor
  · intro h
    have hlength := h.lt_length
    obtain ⟨line', o', hget, hd⟩ := h
    rw [List.length_append, List.length_singleton] at hlength
    rcases Nat.lt_succ_iff_lt_or_eq.mp hlength with hi | rfl
    · rw [List.getElem?_append_left hi] at hget
      rw [List.take_append_of_le_length (Nat.le_of_lt hi)] at hd
      exact Or.inl ⟨line', o', hget, hd⟩
    · rw [List.getElem?_concat_length] at hget
      cases hget
      rw [List.take_left] at hd
      exact Or.inr ⟨rfl, hd⟩
  · rintro (h | ⟨rfl, hd⟩)
    · have hi := h.lt_length
      obtain ⟨line', o', hget, hd⟩ := h
      refine ⟨line', o', ?_, ?_⟩
      · rw [List.getElem?_append_left hi]
        exact hget
      · rw [List.take_append_of_le_length (Nat.le_of_lt hi)]
        exact hd
    · refine ⟨line, o, List.getElem?_concat_length, ?_⟩
      rw [List.take_left]
      exact hd

/-- What is looked up after some lines is what they wrote last, or what was there before them. -/
theorem lookup?_afterLines_iff (h : m.dictionary.WellWorded) (given : List (String × Outlet))
    (name body : String) :
    (m.afterLines given).dictionary.lookup? name = some body ↔
      m.LastWritten given name body ∨
        m.NeverWritten given name ∧ m.dictionary.lookup? name = some body := by
  induction given using List.reverseRecOn generalizing body with
  | nil =>
    have hnone : ∀ i d, ¬ m.ExecutesAt [] i d := by
      intro i d hat
      exact absurd hat.lt_length (Nat.not_lt_zero i)
    simp [LastWritten, NeverWritten, hnone, afterLines]
  | append_singleton given last ih =>
    obtain ⟨line, o⟩ := last
    have hworded := wellWorded_afterLines h given
    rw [afterLines_concat]
    by_cases hd : ∃ new, (m.afterLines given).Executes line o ⟨name, new⟩
    · obtain ⟨new, hd⟩ := hd
      have hlookup := lookup?_of_executes hworded hd
      have hlast : m.ExecutesAt (given ++ [(line, o)]) given.length ⟨name, new⟩ :=
        (executesAt_concat ..).mpr (Or.inr ⟨rfl, hd⟩)
      rw [hlookup, Option.some_inj]
      constructor
      · rintro rfl
        refine Or.inl ⟨given.length, hlast, ?_⟩
        intro j other hj hat
        have hlength := hat.lt_length
        rw [List.length_append, List.length_singleton] at hlength
        omega
      · rintro (⟨i, hi, hlater⟩ | ⟨hnever, -⟩)
        · rcases (executesAt_concat ..).mp hi with hi | ⟨-, hi⟩
          · exact absurd hlast (hlater given.length new hi.lt_length)
          · exact Option.some.inj (hlookup.symm.trans (lookup?_of_executes hworded hi))
        · exact absurd hlast (hnever given.length new)
    · have hsame : ∀ i other, m.ExecutesAt (given ++ [(line, o)]) i ⟨name, other⟩ ↔
          m.ExecutesAt given i ⟨name, other⟩ := by
        intro i other
        rw [executesAt_concat, or_iff_left]
        rintro ⟨-, hexecutes⟩
        exact hd ⟨other, hexecutes⟩
      rw [lookup?_of_not_executes hworded fun new hexecutes => hd ⟨new, hexecutes⟩, ih]
      simp only [LastWritten, NeverWritten, hsame]

theorem lookup?_seeded_iff (name body : String) :
    Dictionary.seeded.lookup? name = some body ↔ name = "test" ∧ body = "+" := by
  rw [Dictionary.seeded, Dictionary.lookup?_define, Dictionary.lookup?_empty]
  split
  · next hname => simp [hname, eq_comm]
  · next hname => simp [hname]

/-- After any lines the dictionary gives each name the body that was written last for it, and
`test` the seeded one if none was. A line that executes a clause writes its body and leaves all
other names alone; any other line leaves all names alone. So no name ever loses its entry. -/
theorem dictionary_is_last_write (maxDepth : Nat) (given : List (String × Outlet)) :
    let m := (fresh maxDepth).afterLines given
    (∀ name body, m.dictionary.lookup? name = some body ↔
      (fresh maxDepth).LastWritten given name body ∨
        (fresh maxDepth).NeverWritten given name ∧ name = "test" ∧ body = "+") ∧
      ∀ line o, let after := ((interpretLine line).run m o).machine
        (∀ d, m.Executes line o d → ∀ name,
          after.dictionary.lookup? name =
            if name = d.name then some d.body else m.dictionary.lookup? name) ∧
        ((∀ d, ¬ m.Executes line o d) → after.dictionary = m.dictionary) ∧
        ∀ name, m.dictionary.lookup? name ≠ none → after.dictionary.lookup? name ≠ none := by
  intro m
  have hworded : m.dictionary.WellWorded := wellWorded_afterLines Dictionary.wellWorded_seeded given
  refine ⟨fun name body => ?_, fun line o => ⟨fun d hd name => ?_, fun hnone => ?_, ?_⟩⟩
  · rw [lookup?_afterLines_iff Dictionary.wellWorded_seeded, ← lookup?_seeded_iff]
    rfl
  · rw [dictionary_of_executes hworded hd, Dictionary.lookup?_define]
  · exact dictionary_of_not_executes hworded hnone
  · intro name hname
    by_cases hd : ∃ body, m.Executes line o ⟨name, body⟩
    · obtain ⟨body, hd⟩ := hd
      rw [lookup?_of_executes hworded hd]
      exact Option.some_ne_none body
    · rw [lookup?_of_not_executes hworded fun body hexecutes => hd ⟨body, hexecutes⟩]
      exact hname

/-- The second body of `a` stays though its line fails, and the third one is never come to. -/
theorem dictionary_is_last_write_twice :
    let given := [(": a 1 ;", Outlet.endless), (": a 2 ; a b", .endless), ("b : a 3 ;", .endless)]
    let m := (fresh 64).afterLines given
    m.dictionary.lookup? "a" = some "2" ∧ (fresh 64).LastWritten given "a" "2" ∧
      m.Executes "1 : b a ; +" .endless ⟨"b", "a"⟩ ∧
      ((interpretLine "1 : b a ; +").run m .endless).machine.dictionary.lookup? "b" = some "a" := by
  intro given m
  have hlookup : m.dictionary.lookup? "a" = some "2" := rfl
  have hexecutes : m.Executes "1 : b a ; +" .endless ⟨"b", "a"⟩ :=
    ⟨["1"], "b", ["a"], ["+"], rfl, ⟨["1", ": b a ;", "+"], rfl⟩, rfl, rfl⟩
  obtain ⟨hhistory, hline⟩ := dictionary_is_last_write 64 given
  have hlast := (hhistory "a" "2").mp hlookup
  have hname : ¬ (NeverWritten (fresh 64) given "a" ∧ "a" = "test" ∧ "2" = "+") := by
    rintro ⟨-, hname, -⟩
    exact absurd hname (by decide)
  refine ⟨hlookup, hlast.resolve_right hname, hexecutes, ?_⟩
  rw [(hline "1 : b a ; +" .endless).1 ⟨"b", "a"⟩ hexecutes "b", if_pos rfl]

end Machine

end ColonForth
