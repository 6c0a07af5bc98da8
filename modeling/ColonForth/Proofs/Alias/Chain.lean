import ColonForth.Program.Journal

/-! Chains of aliases. A word does what the last word of its chain does, or it is a cycle. -/
namespace ColonForth

namespace Dictionary

/-- The word that `word` stands for. Builtin words stand for themselves, whatever the dictionary
says of them. -/
def aliasOf? (d : Dictionary) (word : String) : Option String :=
  if word ∈ Builtin.all.map Builtin.name then none else d.lookup? word

/-- The word that is reached after `n` aliases, if there are as many. -/
def chain (d : Dictionary) (word : String) : Nat → Option String
  | 0 => some word
  | n + 1 => (d.chain word n).bind d.aliasOf?

/-- After `n` aliases the chain comes to `last`, which is no alias. -/
def ChainEnds (d : Dictionary) (word : String) (n : Nat) (last : String) : Prop :=
  d.chain word n = some last ∧ d.aliasOf? last = none

theorem lookup?_of_aliasOf? {d : Dictionary} {word body : String}
    (h : d.aliasOf? word = some body) : d.lookup? word = some body := by
  unfold aliasOf? at h
  split at h
  · cases h
  · exact h

@[simp] theorem chain_zero (d : Dictionary) (word : String) : d.chain word 0 = some word := rfl

theorem chain_succ (d : Dictionary) (word : String) (n : Nat) :
    d.chain word (n + 1) = (d.chain word n).bind d.aliasOf? := rfl

theorem chain_add (d : Dictionary) (word : String) (i j : Nat) :
    d.chain word (i + j) = (d.chain word i).bind fun later => d.chain later j := by
  induction j with
  | zero => simp
  | succ j ih => rw [← Nat.add_assoc, chain_succ, ih, Option.bind_assoc]; rfl

theorem chain_succ_of_alias {d : Dictionary} {word body : String}
    (h : d.aliasOf? word = some body) (n : Nat) : d.chain word (n + 1) = d.chain body n := by
  rw [Nat.add_comm, chain_add, chain_succ, chain_zero, Option.bind_some, h, Option.bind_some]

theorem chain_succ_of_none {d : Dictionary} {word : String} (h : d.aliasOf? word = none)
    (n : Nat) : d.chain word (n + 1) = none := by
  rw [Nat.add_comm, chain_add, chain_succ, chain_zero, Option.bind_some, h, Option.bind_none]

theorem exists_alias_of_chain_succ {d : Dictionary} {word later : String} {n : Nat}
    (h : d.chain word (n + 1) = some later) :
    ∃ before, d.chain word n = some before ∧ d.aliasOf? before = some later := by
  rwa [chain_succ, Option.bind_eq_some_iff] at h

theorem chainEnds_succ {d : Dictionary} {word body last : String} {n : Nat}
    (h : d.aliasOf? word = some body) :
    d.ChainEnds word (n + 1) last ↔ d.ChainEnds body n last := by
  rw [ChainEnds, ChainEnds, chain_succ_of_alias h]

theorem ChainEnds.exists_succ {d : Dictionary} {word body last : String} {n : Nat}
    (h : d.ChainEnds word n last) (hbody : d.aliasOf? word = some body) :
    ∃ k, n = k + 1 ∧ d.ChainEnds body k last := by
  cases n with
  | zero =>
    obtain ⟨hlast, hnone⟩ := h
    obtain rfl := Option.some.inj hlast
    rw [hbody] at hnone
    cases hnone
  | succ k => exact ⟨k, rfl, (chainEnds_succ hbody).mp h⟩

/-- A chain that goes on for `n` aliases either ends within them or has a word behind them. -/
theorem chainEnds_or_chain_eq_some (d : Dictionary) (word : String) (n : Nat) :
    (∃ k < n, ∃ last, d.ChainEnds word k last) ∨ ∃ later, d.chain word n = some later := by
  induction n with
  | zero => exact Or.inr ⟨word, rfl⟩
  | succ n ih =>
    rcases ih with ⟨k, hk, last, hlast⟩ | ⟨later, hlater⟩
    · exact Or.inl ⟨k, by omega, last, hlast⟩
    · cases hbody : d.aliasOf? later with
      | none => exact Or.inl ⟨n, by omega, later, hlater, hbody⟩
      | some body => exact Or.inr ⟨body, by rw [chain_succ, hlater, Option.bind_some, hbody]⟩

end Dictionary

namespace Machine

/-- The word has no meaning of its own yet: it is neither builtin nor in the dictionary. -/
def Unclaimed (m : Machine) (word : String) : Prop :=
  (∀ b : Builtin, word ≠ b.name) ∧ m.dictionary.lookup? word = none

/-- What a word does that stands for no other word: the machine after it, the text that it prints
and how it ends. Builtin words come first. Of the other words those with a leading `:` come before
the numerals. -/
inductive Acts (m : Machine) : String → Machine → String → Except Error Flow → Prop
  | bye : Acts m "bye" m "" (.ok .bye)
  | print (rest : Stack) (n : Int) (h : m.stack = rest.push n) :
      Acts m "." { m with stack := rest } (Numeral.decimal n) (.ok .proceed)
  | printNothing (h : m.stack = .empty) : Acts m "." m "" (.error .stackUnderflow)
  | printStack :
      Acts m ".s" m
        ("<" ++ m.stack.cells.length.repr ++ "> " ++
          String.join (m.stack.cells.map fun n => Numeral.decimal n ++ " "))
        (.ok .proceed)
  | add (rest : Stack) (left right : Int) (h : m.stack = (rest.push left).push right) :
      Acts m "+" { m with stack := rest.push (left + right) } "" (.ok .proceed)
  | addTooFew (h : m.stack.cells.length < 2) : Acts m "+" m "" (.error .stackUnderflow)
  | define (rest : String) (d : Definition) (hfree : m.Unclaimed (":" ++ rest))
      (h : Definition.ofClause (":" ++ rest) = .ok d) :
      Acts m (":" ++ rest) { m with dictionary := m.dictionary.define d.name d.body } ""
        (.ok .proceed)
  | malformed (rest : String) (e : Error) (hfree : m.Unclaimed (":" ++ rest))
      (h : Definition.ofClause (":" ++ rest) = .error e) : Acts m (":" ++ rest) m "" (.error e)
  | literal (word : String) (n : Int) (hfree : m.Unclaimed word)
      (hcolon : ∀ rest, word ≠ ":" ++ rest) (h : Numeral.read? word = some n) :
      Acts m word { m with stack := m.stack.push n } "" (.ok .proceed)
  | unknown (word : String) (hfree : m.Unclaimed word) (hcolon : ∀ rest, word ≠ ":" ++ rest)
      (h : Numeral.read? word = none) : Acts m word m "" (.error (.unknownToken word))

/-! ### The meaning of a word -/

theorem meaning_name (m : Machine) (b : Builtin) : m.meaning b.name = .builtin b := by
  simp only [meaning, Builtin.ofName?_name]

theorem eq_name_of_meaning {m : Machine} {word : String} {b : Builtin}
    (h : m.meaning word = .builtin b) : word = b.name := by
  rw [← Builtin.ofName?_eq_some_iff]
  unfold meaning at h
  split at h
  · next b' hb => rw [hb, Meaning.builtin.inj h]
  · split at h
    · cases h
    · split at h
      · cases h
      · split at h <;> cases h

theorem ofName?_eq_none {word : String} (h : ∀ b : Builtin, word ≠ b.name) :
    Builtin.ofName? word = none := by
  cases hb : Builtin.ofName? word with
  | none => rfl
  | some b => exact absurd ((Builtin.ofName?_eq_some_iff word b).mp hb) (h b)

theorem mem_names_iff (word : String) :
    word ∈ Builtin.all.map Builtin.name ↔ ∃ b : Builtin, word = b.name := by
  constructor
  · intro h
    obtain ⟨b, -, hb⟩ := List.mem_map.mp h
    exact ⟨b, hb.symm⟩
  · rintro ⟨b, rfl⟩
    exact List.mem_map_of_mem (Builtin.mem_all b)

theorem meaning_eq_entry_iff (m : Machine) (word body : String) :
    m.meaning word = .entry body ↔ m.dictionary.aliasOf? word = some body := by
  by_cases hname : ∃ b : Builtin, word = b.name
  · have hmem := (mem_names_iff word).mpr hname
    obtain ⟨b, rfl⟩ := hname
    rw [meaning_name, Dictionary.aliasOf?, if_pos hmem]
    simp
  · have hmem : ¬ word ∈ Builtin.all.map Builtin.name := fun h => hname ((mem_names_iff word).mp h)
    rw [meaning, ofName?_eq_none fun b hb => hname ⟨b, hb⟩, Dictionary.aliasOf?, if_neg hmem]
    cases hl : m.dictionary.lookup? word with
    | some other => simp
    | none =>
      simp only [reduceCtorEq, iff_false]
      split
      · simp
      · cases Numeral.read? word <;> simp

theorem exists_name_or_unclaimed {m : Machine} {word : String}
    (h : m.dictionary.aliasOf? word = none) :
    (∃ b : Builtin, word = b.name) ∨ m.Unclaimed word := by
  by_cases hname : ∃ b : Builtin, word = b.name
  · exact Or.inl hname
  · have hmem : ¬ word ∈ Builtin.all.map Builtin.name := fun h => hname ((mem_names_iff word).mp h)
    rw [Dictionary.aliasOf?, if_neg hmem] at h
    exact Or.inr ⟨fun b hb => hname ⟨b, hb⟩, h⟩

theorem head?_eq_colon_iff (word : String) :
    word.toList.head? = some ':' ↔ ∃ rest, word = ":" ++ rest := by
  constructor
  · intro h
    obtain ⟨cs, hcs⟩ := List.head?_eq_some_iff.mp h
    refine ⟨String.ofList cs, ?_⟩
    rw [← String.toList_inj, hcs]
    simp
  · rintro ⟨rest, rfl⟩
    simp

theorem meaning_of_colon {m : Machine} {rest : String} (h : m.Unclaimed (":" ++ rest)) :
    m.meaning (":" ++ rest) = .definition := by
  have hcolon := (head?_eq_colon_iff (":" ++ rest)).mpr ⟨rest, rfl⟩
  simp only [meaning, ofName?_eq_none h.1, h.2, if_pos hcolon]

theorem meaning_of_no_colon {m : Machine} {word : String} (h : m.Unclaimed word)
    (hcolon : ∀ rest, word ≠ ":" ++ rest) :
    m.meaning word = ((Numeral.read? word).elim .unknown .literal : Meaning) := by
  have hne : ¬ word.toList.head? = some ':' := by
    rw [head?_eq_colon_iff]
    rintro ⟨rest, hrest⟩
    exact hcolon rest hrest
  simp only [meaning, ofName?_eq_none h.1, h.2, if_neg hne]
  cases Numeral.read? word <;> rfl

/-! ### Words that are no aliases -/

theorem evalWithin_name (m : Machine) (budget : Nat) (b : Builtin) :
    m.evalWithin budget b.name = m.perform b := by
  rw [evalWithin.eq_def, meaning_name]

theorem evalWithin_colon {m : Machine} {rest : String} (h : m.Unclaimed (":" ++ rest))
    (budget : Nat) : m.evalWithin budget (":" ++ rest) = m.define (":" ++ rest) := by
  rw [evalWithin.eq_def, meaning_of_colon h]

theorem evalWithin_literal {m : Machine} {word : String} {n : Int} (h : m.Unclaimed word)
    (hcolon : ∀ rest, word ≠ ":" ++ rest) (hn : Numeral.read? word = some n) (budget : Nat) :
    m.evalWithin budget word = ⟨{ m with stack := m.stack.push n }, [], .ok .proceed⟩ := by
  rw [evalWithin.eq_def, meaning_of_no_colon h hcolon, hn]
  rfl

theorem evalWithin_unknown {m : Machine} {word : String} (h : m.Unclaimed word)
    (hcolon : ∀ rest, word ≠ ":" ++ rest) (hn : Numeral.read? word = none) (budget : Nat) :
    m.evalWithin budget word = m.failing (.unknownToken word) := by
  rw [evalWithin.eq_def, meaning_of_no_colon h hcolon, hn]
  rfl

theorem evalWithin_of_acts {m after : Machine} {word text : String} {result : Except Error Flow}
    (h : m.Acts word after text result) (budget : Nat) :
    (m.evalWithin budget word).machine = after ∧ (m.evalWithin budget word).text = text ∧
      (m.evalWithin budget word).result = result := by
  cases h with
  | bye =>
    rw [show "bye" = Builtin.bye.name from rfl, evalWithin_name]
    exact ⟨rfl, rfl, rfl⟩
  | print rest n h =>
    have hpop := (Stack.pop?_eq_some_iff m.stack rest n).mpr h
    rw [show "." = Builtin.print.name from rfl, evalWithin_name]
    simp [perform_print, hpop, Effect.text, Numeral.join_decimalParts]
  | printNothing h =>
    rw [show "." = Builtin.print.name from rfl, evalWithin_name]
    simp [perform_print, (Stack.pop?_eq_none_iff m.stack).mpr h, failing, Effect.text]
  | printStack =>
    rw [show ".s" = Builtin.printStack.name from rfl, evalWithin_name]
    simp [perform, Effect.text, Stack.listing, Stack.length_cells]
  | add rest left right h =>
    have hadd := (Stack.add?_eq_some_iff m.stack (rest.push (left + right))).mpr
      ⟨rest, left, right, h, rfl⟩
    rw [show "+" = Builtin.add.name from rfl, evalWithin_name]
    simp [perform_add, hadd, Effect.text]
  | addTooFew h =>
    rw [show "+" = Builtin.add.name from rfl, evalWithin_name]
    simp [perform_add, (Stack.add?_eq_none_iff m.stack).mpr h, failing, Effect.text]
  | define rest d hfree h =>
    rw [evalWithin_colon hfree]
    simp [define, h, Effect.text]
  | malformed rest e hfree h =>
    rw [evalWithin_colon hfree]
    simp [define, h, failing, Effect.text]
  | literal word n hfree hcolon h =>
    rw [evalWithin_literal hfree hcolon h]
    exact ⟨rfl, rfl, rfl⟩
  | unknown word hfree hcolon h =>
    rw [evalWithin_unknown hfree hcolon h]
    exact ⟨rfl, rfl, rfl⟩

/-- Every word that is no alias acts in some way. -/
theorem exists_acts {m : Machine} {word : String} (h : m.dictionary.aliasOf? word = none) :
    ∃ after text result, m.Acts word after text result := by
  rcases exists_name_or_unclaimed h with ⟨b, rfl⟩ | hfree
  · cases b with
    | bye => exact ⟨_, _, _, .bye⟩
    | print =>
      cases hpop : m.stack.pop? with
      | none => exact ⟨_, _, _, .printNothing ((Stack.pop?_eq_none_iff _).mp hpop)⟩
      | some top => exact ⟨_, _, _, .print _ _ ((Stack.pop?_eq_some_iff _ _ _).mp hpop)⟩
    | printStack => exact ⟨_, _, _, .printStack⟩
    | add =>
      cases hadd : m.stack.add? with
      | none => exact ⟨_, _, _, .addTooFew ((Stack.add?_eq_none_iff _).mp hadd)⟩
      | some sum =>
        obtain ⟨rest, left, right, hstack, -⟩ := (Stack.add?_eq_some_iff _ _).mp hadd
        exact ⟨_, _, _, .add rest left right hstack⟩
  · by_cases hcolon : ∃ rest, word = ":" ++ rest
    · obtain ⟨rest, rfl⟩ := hcolon
      cases hclause : Definition.ofClause (":" ++ rest) with
      | ok d => exact ⟨_, _, _, .define rest d hfree hclause⟩
      | error e => exact ⟨_, _, _, .malformed rest e hfree hclause⟩
    · have hcolon' : ∀ rest, word ≠ ":" ++ rest := fun rest hrest => hcolon ⟨rest, hrest⟩
      cases hn : Numeral.read? word with
      | some n => exact ⟨_, _, _, .literal word n hfree hcolon' hn⟩
      | none => exact ⟨_, _, _, .unknown word hfree hcolon' hn⟩

/-- Acting is what evaluating does to a word that is no alias. -/
theorem acts_iff {m : Machine} {word : String} (h : m.dictionary.aliasOf? word = none)
    (budget : Nat) (after : Machine) (text : String) (result : Except Error Flow) :
    m.Acts word after text result ↔
      (m.evalWithin budget word).machine = after ∧ (m.evalWithin budget word).text = text ∧
        (m.evalWithin budget word).result = result := by
  constructor
  · intro hacts
    exact evalWithin_of_acts hacts budget
  · rintro ⟨rfl, rfl, rfl⟩
    obtain ⟨after, text, result, hacts⟩ := exists_acts h
    obtain ⟨rfl, rfl, rfl⟩ := evalWithin_of_acts hacts budget
    exact hacts

theorem evalWithin_eq_of_aliasOf?_eq_none {m : Machine} {word : String}
    (h : m.dictionary.aliasOf? word = none) (budget budget' : Nat) :
    m.evalWithin budget word = m.evalWithin budget' word := by
  have hentry : ∀ body, m.meaning word ≠ .entry body := by
    intro body hbody
    rw [meaning_eq_entry_iff, h] at hbody
    cases hbody
  rw [evalWithin.eq_def, evalWithin.eq_def m budget']
  cases hm : m.meaning word with
  | entry body => exact absurd hm (hentry body)
  | builtin b => rfl
  | definition => rfl
  | literal n => rfl
  | unknown => rfl

/-! ### Words that are aliases -/

theorem evalWithin_alias_zero {m : Machine} {word body : String}
    (h : m.dictionary.aliasOf? word = some body) :
    m.evalWithin 0 word = m.failing (.definitionCycle word) := by
  rw [evalWithin.eq_def, (meaning_eq_entry_iff m word body).mpr h]

theorem evalWithin_alias_succ {m : Machine} {word body : String}
    (h : m.dictionary.aliasOf? word = some body) (budget : Nat) :
    m.evalWithin (budget + 1) word = m.evalWithin budget body := by
  rw [evalWithin.eq_def, (meaning_eq_entry_iff m word body).mpr h]

/-- A chain within the budget is followed to its end. -/
theorem evalWithin_of_chainEnds {m : Machine} {word last : String} {n budget : Nat}
    (h : m.dictionary.ChainEnds word n last) (hn : n ≤ budget) :
    m.evalWithin budget word = m.evalWithin m.maxDepth last := by
  induction n generalizing word budget with
  | zero =>
    obtain ⟨hword, hlast⟩ := h
    obtain rfl := Option.some.inj hword
    exact evalWithin_eq_of_aliasOf?_eq_none hlast budget m.maxDepth
  | succ n ih =>
    cases hbody : m.dictionary.aliasOf? word with
    | none =>
      have hnone := Dictionary.chain_succ_of_none hbody n
      rw [Dictionary.ChainEnds, hnone] at h
      cases h.1
    | some body =>
      cases budget with
      | zero => exact absurd hn (Nat.not_succ_le_zero n)
      | succ budget =>
        rw [evalWithin_alias_succ hbody]
        exact ih ((Dictionary.chainEnds_succ hbody).mp h) (Nat.le_of_succ_le_succ hn)

/-- A chain that goes on when the budget is spent is a cycle to the machine. -/
theorem evalWithin_of_chain_alias {m : Machine} {word later body : String} {budget : Nat}
    (h : m.dictionary.chain word budget = some later)
    (hbody : m.dictionary.aliasOf? later = some body) :
    m.evalWithin budget word = m.failing (.definitionCycle later) := by
  induction budget generalizing word with
  | zero =>
    obtain rfl := Option.some.inj h
    exact evalWithin_alias_zero hbody
  | succ budget ih =>
    cases hnext : m.dictionary.aliasOf? word with
    | none =>
      rw [Dictionary.chain_succ_of_none hnext] at h
      cases h
    | some next =>
      rw [Dictionary.chain_succ_of_alias hnext] at h
      rw [evalWithin_alias_succ hnext]
      exact ih h

theorem chainEnds_or_evalWithin_eq_failing (m : Machine) (budget : Nat) (word : String) :
    (∃ n ≤ budget, ∃ last, m.dictionary.ChainEnds word n last) ∨
      ∃ later, m.dictionary.chain word budget = some later ∧
        m.evalWithin budget word = m.failing (.definitionCycle later) := by
  rcases m.dictionary.chainEnds_or_chain_eq_some word (budget + 1) with
    ⟨n, hn, last, hends⟩ | ⟨body, hbody⟩
  · exact Or.inl ⟨n, Nat.le_of_lt_succ hn, last, hends⟩
  · obtain ⟨later, hlater, halias⟩ := Dictionary.exists_alias_of_chain_succ hbody
    exact Or.inr ⟨later, hlater, evalWithin_of_chain_alias hlater halias⟩

/-- A word whose chain does not end in time is a cycle, named after the word at the depth bound. -/
theorem evalWord_of_long_chain {m : Machine} {word : String}
    (h : ∀ n last, m.dictionary.ChainEnds word n last → m.maxDepth < n) :
    ∃ later, m.dictionary.chain word m.maxDepth = some later ∧
      m.evalWord word = m.failing (.definitionCycle later) := by
  rcases m.chainEnds_or_evalWithin_eq_failing m.maxDepth word with ⟨n, hn, last, hends⟩ | hlong
  · exact absurd (h n last hends) (Nat.not_lt_of_le hn)
  · exact hlong

end Machine

/-! ### The words that are looked up -/

namespace Journal

/-- The records of the words that have been looked up. -/
def lookups (records : List Log.Record) : List Log.Record :=
  records.filter (·.target == "dictforth::runtime")

@[simp] theorem lookups_cons_resolved (word : String) (depth : Nat) (found : Meaning)
    (records : List Log.Record) :
    lookups (resolved word depth found :: records) =
      resolved word depth found :: lookups records := rfl

theorem lookups_ofWord_of_last {m : Machine} {budget : Nat} {word : String}
    (h : budget = 0 ∨ m.dictionary.aliasOf? word = none) (depth : Nat) :
    lookups (ofWord m budget depth word) = [resolved word depth (m.meaning word)] := by
  rw [ofWord.eq_def, lookups_cons_resolved]
  congr 1
  cases hmeaning : m.meaning word with
  | entry body =>
    rw [Machine.meaning_eq_entry_iff] at hmeaning
    rcases h with rfl | hnone
    · rfl
    · rw [hnone] at hmeaning
      cases hmeaning
  | definition =>
    cases h : Definition.ofClause word <;> simp [lookups, ofDefinition, cut, defined, h]
  | builtin b => rfl
  | literal n => rfl
  | unknown => rfl

theorem lookups_ofWord_alias {m : Machine} {word body : String}
    (h : m.dictionary.aliasOf? word = some body) (budget depth : Nat) :
    lookups (ofWord m (budget + 1) depth word) =
      resolved word depth (m.meaning word) :: lookups (ofWord m budget (depth + 1) body) := by
  rw [ofWord.eq_def, (Machine.meaning_eq_entry_iff m word body).mpr h, lookups_cons_resolved]

/-- Looking words up leads along the chain, for one word more than there are aliases allowed. -/
theorem lookups_ofWord (m : Machine) (budget depth : Nat) (word : String) :
    ∃ visited : List String, visited.length ≤ budget + 1 ∧
      (∀ i < visited.length, visited[i]? = m.dictionary.chain word i) ∧
      lookups (ofWord m budget depth word) =
        visited.mapIdx fun i w => resolved w (depth + i) (m.meaning w) := by
  induction budget generalizing word depth with
  | zero =>
    refine ⟨[word], Nat.le_refl 1, ?_, lookups_ofWord_of_last (Or.inl rfl) depth⟩
    intro i hi
    obtain rfl := Nat.lt_one_iff.mp hi
    rfl
  | succ budget ih =>
    cases hbody : m.dictionary.aliasOf? word with
    | none =>
      refine ⟨[word], by simp, ?_, lookups_ofWord_of_last (Or.inr hbody) depth⟩
      intro i hi
      obtain rfl := Nat.lt_one_iff.mp hi
      rfl
    | some body =>
      obtain ⟨visited, hlength, hchain, hlookups⟩ := ih (depth + 1) body
      refine ⟨word :: visited, Nat.succ_le_succ hlength, ?_, ?_⟩
      · intro i hi
        cases i with
        | zero => rfl
        | succ i =>
          rw [List.getElem?_cons_succ, Dictionary.chain_succ_of_alias hbody]
          exact hchain i (Nat.lt_of_succ_lt_succ hi)
      · rw [lookups_ofWord_alias hbody, hlookups, List.mapIdx_cons]
        simp only [Nat.add_zero, Nat.add_assoc, Nat.add_comm 1]

end Journal

/-! ### Evaluation and chains -/

namespace Machine

/-- A word does what the last word of its chain does if the machine may follow that many aliases,
and else it is a definition cycle, named after the last alias that was looked up. Every word that is
looked up stands on the chain at its depth, which `maxDepth` bounds. -/
theorem evalWord_follows_chain (m : Machine) (word : String) :
    (∀ n last, n ≤ m.maxDepth → m.dictionary.ChainEnds word n last →
      m.evalWord word = m.evalWord last ∧
        ∀ after text result, m.Acts last after text result ↔
          (m.evalWord word).machine = after ∧ (m.evalWord word).text = text ∧
            (m.evalWord word).result = result) ∧
      ((∀ n last, m.dictionary.ChainEnds word n last → m.maxDepth < n) →
        ∃ later, m.dictionary.chain word m.maxDepth = some later ∧
          m.evalWord word = m.failing (.definitionCycle later)) ∧
      ∃ visited : List String, visited.length ≤ m.maxDepth + 1 ∧
        (∀ depth < visited.length, visited[depth]? = m.dictionary.chain word depth) ∧
        Journal.lookups (Journal.ofWord m m.maxDepth 0 word) =
          visited.mapIdx fun depth w => Journal.resolved w depth (m.meaning w) := by
  refine ⟨?_, ?_, ?_⟩
  · intro n last hn hends
    have heq : m.evalWord word = m.evalWord last := evalWithin_of_chainEnds hends hn
    refine ⟨heq, fun after text result => ?_⟩
    rw [heq]
    exact acts_iff hends.2 m.maxDepth after text result
  · intro hlong
    exact evalWord_of_long_chain hlong
  · have hlookups := Journal.lookups_ofWord m m.maxDepth 0 word
    simpa only [Nat.zero_add] using hlookups

def sumMachine (maxDepth : Nat) : Machine :=
  ⟨⟨[2, 40]⟩, Dictionary.seeded.define "sum" "test", maxDepth⟩

/-- Two aliases are followed where two are allowed, and where one is allowed they are a cycle. -/
theorem evalWord_sumMachine :
    ((sumMachine 2).evalWord "sum").machine.stack = ⟨[42]⟩ ∧
      (sumMachine 1).evalWord "sum" = (sumMachine 1).failing (.definitionCycle "test") := by
  have hends : (sumMachine 2).dictionary.ChainEnds "sum" 2 "+" := ⟨rfl, rfl⟩
  constructor
  · have hacts := ((evalWord_follows_chain (sumMachine 2) "sum").1 2 "+" (Nat.le_refl 2) hends).2
    rw [((hacts _ _ _).mp (.add ⟨[]⟩ 40 2 rfl)).1]
    rfl
  · obtain ⟨later, hlater, hcycle⟩ := (evalWord_follows_chain (sumMachine 1) "sum").2.1 (by
      intro n last hlast
      match n, hlast with
      | 0, hlast => cases hlast.1; cases hlast.2
      | 1, hlast => cases hlast.1; cases hlast.2
      | n + 2, _ => exact Nat.lt_of_lt_of_le Nat.one_lt_two (Nat.le_add_left 2 n))
    obtain rfl : "test" = later := Option.some.inj hlater
    exact hcycle

end Machine

end ColonForth
