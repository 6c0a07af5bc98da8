import ColonForth.Program.Journal

/-! The evaluation of a word as a loop that counts the aliases behind it. -/
namespace ColonForth.Machine

/-- Evaluates a word behind `depth` aliases and records every turn of the loop. -/
def turns (m : Machine) (word : String) (depth : Nat) : Effect × List Log.Record :=
  let seen := Journal.resolved word depth (m.meaning word)
  match m.meaning word with
  | .builtin b => (m.perform b, [seen])
  | .entry body =>
    if m.maxDepth ≤ depth then (m.failing (.definitionCycle word), [seen])
    else
      let later := m.turns body (depth + 1)
      (later.1, seen :: later.2)
  | .definition => (m.define word, seen :: Journal.ofDefinition word)
  | .literal n => (⟨{ m with stack := m.stack.push n }, [], .ok .proceed⟩, [seen])
  | .unknown => (m.failing (.unknownToken word), [seen])
termination_by m.maxDepth - depth

theorem turns_eq {m : Machine} {budget depth : Nat} (h : depth + budget = m.maxDepth)
    (word : String) :
    m.turns word depth = (m.evalWithin budget word, Journal.ofWord m budget depth word) := by
  induction budget generalizing depth word with
  | zero =>
    have hguard : m.maxDepth ≤ depth := by omega
    unfold turns evalWithin Journal.ofWord
    cases m.meaning word with
    | entry body => simp [hguard]
    | builtin b | definition | literal n | unknown => rfl
  | succ budget ih =>
    have hguard : ¬ m.maxDepth ≤ depth := by omega
    have hcount : depth + 1 + budget = m.maxDepth := by omega
    unfold turns evalWithin Journal.ofWord
    cases m.meaning word with
    | entry body => simp [hguard, ih hcount body]
    | builtin b | definition | literal n | unknown => rfl

/-- Evaluating a word is running the loop from its start, and the log tells of every turn. -/
theorem turns_zero (m : Machine) (word : String) :
    m.turns word 0 = (m.evalWord word, Journal.ofWord m m.maxDepth 0 word) :=
  turns_eq (Nat.zero_add m.maxDepth) word

end ColonForth.Machine
