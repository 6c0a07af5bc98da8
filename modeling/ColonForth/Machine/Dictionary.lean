/-! The dictionary gives a defined word its body. Each name has one entry, the latest one. -/
namespace ColonForth

structure Dictionary where
  entries : List (String × String)
  nodup_names : (entries.map Prod.fst).Nodup

namespace Dictionary

def empty : Dictionary :=
  ⟨[], .nil⟩

def lookup? (d : Dictionary) (name : String) : Option String :=
  d.entries.lookup name

def size (d : Dictionary) : Nat :=
  d.entries.length

def define (d : Dictionary) (name body : String) : Dictionary where
  entries := (name, body) :: d.entries.filter (·.1 != name)
  nodup_names := by
    refine List.nodup_cons.mpr ⟨by simp, ?_⟩
    exact d.nodup_names.sublist (List.filter_sublist.map Prod.fst)

/-- A new machine knows one word, `test`, which stands for `+`. -/
def seeded : Dictionary :=
  empty.define "test" "+"

@[simp] theorem lookup?_empty (name : String) : empty.lookup? name = none := rfl

private theorem lookup_filter_ne (entries : List (String × String)) {name other : String}
    (h : other ≠ name) : (entries.filter (·.1 != name)).lookup other = entries.lookup other := by
  induction entries with
  | nil => rfl
  | cons entry rest ih =>
    obtain ⟨key, body⟩ := entry
    by_cases hk : key = name
    · subst hk
      have : (other == key) = false := by simpa using h
      simp [List.lookup_cons, ih, this]
    · simp [hk, List.lookup_cons, ih]

theorem lookup?_define (d : Dictionary) (name body other : String) :
    (d.define name body).lookup? other = if other = name then some body else d.lookup? other := by
  by_cases h : other = name
  · simp [lookup?, define, h]
  · have : (other == name) = false := by simpa using h
    simp [lookup?, define, h, this, List.lookup_cons, lookup_filter_ne d.entries h]

end Dictionary

end ColonForth
