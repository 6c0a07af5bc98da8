import ColonForth.Proofs.Alias.Chain
import ColonForth.Proofs.Word.Clause
import Mathlib.Data.Finset.Card

/-! Cycles of aliases. A chain that does not end comes back to a word it has been at. -/
namespace ColonForth

namespace Dictionary

/-- The chain comes back to a word that it has been at. -/
def Revisits (d : Dictionary) (word : String) : Prop :=
  ∃ i j later, i < j ∧ d.chain word i = some later ∧ d.chain word j = some later

/-- Aliases lead from the word back to it. -/
def OnCycle (d : Dictionary) (word : String) : Prop :=
  ∃ n, 0 < n ∧ d.chain word n = some word

theorem mem_names_of_lookup? {d : Dictionary} {name body : String}
    (h : d.lookup? name = some body) : name ∈ d.entries.map Prod.fst := by
  obtain ⟨before, after, hentries, -⟩ := List.lookup_eq_some_iff.mp h
  rw [hentries, List.map_append, List.map_cons]
  exact List.mem_append_right _ List.mem_cons_self

theorem exists_chain_of_le {d : Dictionary} {word last : String} {n : Nat}
    (h : d.chain word n = some last) {i : Nat} (hi : i ≤ n) :
    ∃ later, d.chain word i = some later := by
  obtain ⟨j, rfl⟩ := Nat.exists_eq_add_of_le hi
  rw [chain_add, Option.bind_eq_some_iff] at h
  obtain ⟨later, hlater, -⟩ := h
  exact ⟨later, hlater⟩

/-- Every word that is left by an alias has an entry of its own. -/
theorem chain_mem_names {d : Dictionary} {word last : String} {n : Nat}
    (h : d.chain word (n + 1) = some last) :
    d.chain word n ∈ (d.entries.map fun entry => some entry.1).toFinset := by
  obtain ⟨later, hlater, halias⟩ := exists_alias_of_chain_succ h
  obtain ⟨entry, hentry, hname⟩ :=
    List.mem_map.mp (mem_names_of_lookup? (lookup?_of_aliasOf? halias))
  rw [hlater, List.mem_toFinset]
  exact List.mem_map.mpr ⟨entry, hentry, congrArg some hname⟩

/-- More aliases than entries make the chain come back. -/
theorem exists_chain_eq {d : Dictionary} {word last : String} {n : Nat} (hn : d.size < n)
    (h : d.chain word n = some last) :
    ∃ i j, i < j ∧ j ≤ d.size ∧ d.chain word i = d.chain word j := by
  -- The first `d.size + 1` words of the chain all have entries, so that two of them are equal.
  let names := (d.entries.map fun entry => some entry.1).toFinset
  have hcard : names.card < (Finset.range (d.size + 1)).card := by
    have hle := List.toFinset_card_le (d.entries.map fun entry => some entry.1)
    rw [List.length_map] at hle
    rw [Finset.card_range]
    exact Nat.lt_succ_of_le hle
  have hmaps : Set.MapsTo (d.chain word) (Finset.range (d.size + 1)) names := by
    intro i hi
    have hle : i + 1 ≤ n := by
      have := Finset.mem_range.mp hi
      omega
    obtain ⟨later, hlater⟩ := exists_chain_of_le h hle
    exact chain_mem_names hlater
  obtain ⟨i, hi, j, hj, hne, heq⟩ := Finset.exists_ne_map_eq_of_card_lt_of_maps_to hcard hmaps
  rw [Finset.mem_range] at hi hj
  rcases Nat.lt_or_gt_of_ne hne with hlt | hlt
  · exact ⟨i, j, hlt, by omega, heq⟩
  · exact ⟨j, i, hlt, by omega, heq.symm⟩

theorem chain_add_eq_of_chain_eq {d : Dictionary} {word : String} {i j : Nat}
    (h : d.chain word i = d.chain word j) (n : Nat) :
    d.chain word (i + n) = d.chain word (j + n) := by
  rw [chain_add, chain_add, h]

theorem chain_add_mul_eq {d : Dictionary} {word : String} {i p : Nat}
    (h : d.chain word (i + p) = d.chain word i) (laps : Nat) :
    d.chain word (i + laps * p) = d.chain word i := by
  induction laps with
  | zero => simp
  | succ laps ih =>
    have hlap := chain_add_eq_of_chain_eq h (laps * p)
    rw [Nat.succ_mul, Nat.add_comm (laps * p), ← Nat.add_assoc, hlap, ih]

theorem ChainEnds.chain_eq_none {d : Dictionary} {word last : String} {n : Nat}
    (h : d.ChainEnds word n last) {k : Nat} (hk : n < k) : d.chain word k = none := by
  obtain ⟨r, rfl⟩ := Nat.exists_eq_add_of_lt hk
  rw [Nat.add_assoc, chain_add, h.1, Option.bind_some, chain_succ_of_none h.2]

theorem Revisits.not_chainEnds {d : Dictionary} {word : String} (h : d.Revisits word) (n : Nat)
    (last : String) : ¬ d.ChainEnds word n last := by
  intro hends
  obtain ⟨i, j, later, hij, hi, hj⟩ := h
  have hlap : d.chain word (i + (j - i)) = d.chain word i := by
    rw [Nat.add_sub_cancel' hij.le, hi, hj]
  -- Enough laps lead behind the end of the chain, where no word is left.
  have hlaps := chain_add_mul_eq hlap (n + 1)
  have hlong : n < i + (n + 1) * (j - i) := by
    have := Nat.le_mul_of_pos_right (n + 1) (Nat.sub_pos_of_lt hij)
    omega
  rw [hends.chain_eq_none hlong, hi] at hlaps
  cases hlaps

/-- A chain comes back just where it does not end. -/
theorem revisits_iff (d : Dictionary) (word : String) :
    d.Revisits word ↔ ∀ n last, ¬ d.ChainEnds word n last := by
  constructor
  · intro h n last
    exact h.not_chainEnds n last
  · intro h
    rcases d.chainEnds_or_chain_eq_some word (d.size + 1) with ⟨n, -, last, hends⟩ | ⟨last, hlast⟩
    · exact absurd hends (h n last)
    · obtain ⟨i, j, hij, hj, heq⟩ := exists_chain_eq (Nat.lt_succ_self d.size) hlast
      obtain ⟨later, hlater⟩ := exists_chain_of_le hlast (Nat.le_succ_of_le hj)
      exact ⟨i, j, later, hij, heq.trans hlater, hlater⟩

/-- A chain that ends has no more aliases than the dictionary has entries. -/
theorem ChainEnds.le_size {d : Dictionary} {word last : String} {n : Nat}
    (h : d.ChainEnds word n last) : n ≤ d.size := by
  by_contra hn
  obtain ⟨i, j, hij, hj, heq⟩ := exists_chain_eq (Nat.lt_of_not_le hn) h.1
  obtain ⟨later, hlater⟩ := exists_chain_of_le h.1 (show j ≤ n by omega)
  exact (revisits_iff d word).mp ⟨i, j, later, hij, heq.trans hlater, hlater⟩ n last h

/-- A chain that does not end has left its tail after as many aliases as there are entries. -/
theorem Revisits.onCycle {d : Dictionary} {word later : String} (h : d.Revisits word) {n : Nat}
    (hn : d.size ≤ n) (hlater : d.chain word n = some later) : d.OnCycle later := by
  rcases d.chainEnds_or_chain_eq_some word (d.size + 1) with ⟨k, -, last, hends⟩ | ⟨last, hlast⟩
  · exact absurd hends (h.not_chainEnds k last)
  · obtain ⟨i, j, hij, hj, heq⟩ := exists_chain_eq (Nat.lt_succ_self d.size) hlast
    refine ⟨j - i, Nat.sub_pos_of_lt hij, ?_⟩
    have hlap := chain_add_eq_of_chain_eq heq (n - i)
    rw [show i + (n - i) = n by omega, show j + (n - i) = n + (j - i) by omega, hlater, chain_add,
      hlater, Option.bind_some] at hlap
    exact hlap.symm

end Dictionary

namespace Machine

theorem result_ne_cycle_of_aliasOf? {m : Machine} {word : String}
    (h : m.dictionary.aliasOf? word = none) (other : String) :
    (m.evalWord word).result ≠ .error (.definitionCycle other) := by
  intro hcycle
  have hacts := (acts_iff h m.maxDepth _ _ _).mpr ⟨rfl, rfl, hcycle⟩
  generalize (m.evalWithin m.maxDepth word).machine = after,
    (m.evalWithin m.maxDepth word).text = text at hacts
  cases hacts with
  | malformed rest e hfree hclause =>
    have herror := Definition.ofClause_of_error hclause
    cases herror

/-- A chain that comes back is reported, however many aliases may be followed. -/
theorem evalWord_of_revisits {m : Machine} {word : String} (h : m.dictionary.Revisits word) :
    ∃ named, m.dictionary.chain word m.maxDepth = some named ∧
      m.evalWord word = m.failing (.definitionCycle named) :=
  evalWord_of_long_chain fun n last hends => absurd hends (h.not_chainEnds n last)

theorem revisits_of_result {m : Machine} (hsize : m.dictionary.size ≤ m.maxDepth)
    {word named : String} (h : (m.evalWord word).result = .error (.definitionCycle named)) :
    m.dictionary.Revisits word := by
  rw [Dictionary.revisits_iff]
  intro n last hends
  have heq : m.evalWord word = m.evalWord last :=
    evalWithin_of_chainEnds hends (hends.le_size.trans hsize)
  rw [heq] at h
  exact result_ne_cycle_of_aliasOf? hends.2 named h

/-- A machine that may follow as many aliases as its dictionary has entries reports a cycle just
where the chain of a word never ends, and names a word on the cycle. With fewer aliases it may
report other chains too, but it reports all that never end. -/
theorem evalWord_detects_cycles (m : Machine) (word : String) :
    (m.dictionary.size ≤ m.maxDepth →
      ((∃ named, (m.evalWord word).result = .error (.definitionCycle named)) ↔
        ∀ n last, ¬ m.dictionary.ChainEnds word n last) ∧
      ∀ named, (m.evalWord word).result = .error (.definitionCycle named) →
        (∃ n, m.dictionary.chain word n = some named) ∧ m.dictionary.OnCycle named) ∧
      (m.dictionary.Revisits word ↔ ∀ n last, ¬ m.dictionary.ChainEnds word n last) ∧
      (m.dictionary.Revisits word →
        ∃ named, m.evalWord word = m.failing (.definitionCycle named)) := by
  refine ⟨fun hsize => ⟨⟨?_, ?_⟩, ?_⟩, m.dictionary.revisits_iff word, ?_⟩
  · rintro ⟨named, hnamed⟩
    exact (m.dictionary.revisits_iff word).mp (revisits_of_result hsize hnamed)
  · intro hendless
    obtain ⟨named, -, heq⟩ :=
      evalWord_of_revisits ((m.dictionary.revisits_iff word).mpr hendless)
    exact ⟨named, by rw [heq]; rfl⟩
  · intro named hnamed
    have hrevisits := revisits_of_result hsize hnamed
    obtain ⟨other, hother, heq⟩ := evalWord_of_revisits hrevisits
    rw [heq] at hnamed
    obtain rfl : other = named := by simpa [failing] using hnamed
    exact ⟨⟨m.maxDepth, hother⟩, hrevisits.onCycle hsize hother⟩
  · intro hrevisits
    obtain ⟨named, -, heq⟩ := evalWord_of_revisits hrevisits
    exact ⟨named, heq⟩

def pingPong : Machine :=
  ⟨.empty, ((Dictionary.empty.define "tail" "ping").define "ping" "pong").define "pong" "ping", 3⟩

/-- The word that is named for `tail` lies behind the tail. -/
theorem evalWord_pingPong :
    pingPong.dictionary.size ≤ pingPong.maxDepth ∧
      (pingPong.evalWord "tail").result = .error (.definitionCycle "ping") ∧
      pingPong.dictionary.OnCycle "ping" := by
  have hsize : pingPong.dictionary.size ≤ pingPong.maxDepth := Nat.le_refl 3
  have hcycle : (pingPong.evalWord "tail").result = .error (.definitionCycle "ping") := rfl
  exact ⟨hsize, hcycle, (((evalWord_detects_cycles pingPong "tail").1 hsize).2 "ping" hcycle).2⟩

end Machine

end ColonForth
