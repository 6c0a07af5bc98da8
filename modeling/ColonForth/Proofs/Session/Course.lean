import ColonForth.Session.Action

/-! The course of a run: it ends as the first item does that says `bye` or fails. -/
namespace ColonForth.Action

variable {α : Type} {act : α → Action Flow} {item : α} {items taken : List α} {m here : Machine}
  {o left : Outlet} {bytes : List UInt8}

/-- The run over the items comes to `item`, and it has led to the machine `here` and the outlet
`left` by then. -/
def ComesTo (act : α → Action Flow) (items : List α) (m : Machine) (o : Outlet) (item : α)
    (here : Machine) (left : Outlet) : Prop :=
  ∃ taken rest written, items = taken ++ item :: rest ∧
    (untilBye act taken).run m o = ⟨here, left, written, .ok .proceed⟩

theorem exists_run_of_result {β : Type} {act : Action β} {a : β}
    (h : (act.run m o).result = .ok a) :
    ∃ here left bytes, act.run m o = ⟨here, left, bytes, .ok a⟩ := by
  refine ⟨(act.run m o).machine, (act.run m o).outlet, (act.run m o).written, ?_⟩
  rw [← h]

theorem run_untilBye_cons_of_proceed (h : (act item).run m o = ⟨here, left, bytes, .ok .proceed⟩)
    (items : List α) :
    (untilBye act (item :: items)).run m o =
      let later := (untilBye act items).run here left
      ⟨later.machine, later.outlet, bytes ++ later.written, later.result⟩ := by
  have hresult : ((act item).run m o).result = .ok .proceed := by rw [h]
  rw [untilBye, run_bind_of_ok hresult, h]
  rfl

theorem run_untilBye_cons_of_stop (h : ((act item).run m o).result ≠ .ok .proceed)
    (items : List α) : (untilBye act (item :: items)).run m o = (act item).run m o := by
  rw [untilBye]
  cases hresult : ((act item).run m o).result with
  | error e =>
    rw [run_bind_of_error hresult, ← hresult]
  | ok flow =>
    cases flow with
    | proceed => exact absurd hresult h
    | bye =>
      rw [run_bind_of_ok hresult, Flow.unlessBye_bye, run_pure]
      simp only [List.append_nil]
      rw [← hresult]

theorem not_comesTo_nil : ¬ ComesTo act [] m o item here left := by
  rintro ⟨taken, rest, written, hnil, -⟩
  cases taken <;> cases hnil

theorem comesTo_cons_iff {first : α} :
    ComesTo act (first :: items) m o item here left ↔
      (item = first ∧ here = m ∧ left = o) ∨
        ∃ next between bytes, (act first).run m o = ⟨next, between, bytes, .ok .proceed⟩ ∧
          ComesTo act items next between item here left := by
  constructor
  · rintro ⟨taken, rest, written, hitems, hrun⟩
    cases taken with
    | nil =>
      cases hitems
      cases hrun
      exact Or.inl ⟨rfl, rfl, rfl⟩
    | cons first' taken =>
      obtain ⟨rfl, rfl⟩ := List.cons.inj hitems
      by_cases hfirst : ((act first).run m o).result = .ok .proceed
      · obtain ⟨next, between, bytes, hnext⟩ := exists_run_of_result hfirst
        refine Or.inr ⟨next, between, bytes, hnext, taken, rest, ?_⟩
        rw [run_untilBye_cons_of_proceed hnext] at hrun
        obtain ⟨rfl, rfl, -, hresult⟩ := Outcome.mk.inj hrun
        exact ⟨_, rfl, by rw [← hresult]⟩
      · rw [run_untilBye_cons_of_stop hfirst] at hrun
        exact absurd (congrArg Outcome.result hrun) hfirst
  · rintro (⟨rfl, rfl, rfl⟩ | ⟨next, between, bytes, hnext, taken, rest, written, rfl, hrun⟩)
    · exact ⟨[], items, [], rfl, rfl⟩
    · refine ⟨first :: taken, rest, bytes ++ written, rfl, ?_⟩
      rw [run_untilBye_cons_of_proceed hnext, hrun]

/-- The items that the run comes to in turn, each with the machine and the outlet it finds. -/
def course (act : α → Action Flow) (m : Machine) (o : Outlet) :
    List α → List (α × Machine × Outlet)
  | [] => []
  | item :: items =>
    let done := (act item).run m o
    (item, m, o) ::
      match done.result with
      | .ok .proceed => course act done.machine done.outlet items
      | _ => []

theorem course_cons_of_proceed (h : (act item).run m o = ⟨here, left, bytes, .ok .proceed⟩)
    (items : List α) :
    course act m o (item :: items) = (item, m, o) :: course act here left items := by
  rw [course, h]

theorem course_cons_of_stop (h : ((act item).run m o).result ≠ .ok .proceed) (items : List α) :
    course act m o (item :: items) = [(item, m, o)] := by
  rw [course]
  split
  · next hresult => exact absurd hresult h
  · rfl

theorem mem_course_iff :
    (item, here, left) ∈ course act m o items ↔ ComesTo act items m o item here left := by
  induction items generalizing m o with
  | nil => exact iff_of_false List.not_mem_nil not_comesTo_nil
  | cons first items ih =>
    rw [comesTo_cons_iff]
    by_cases hfirst : ((act first).run m o).result = .ok .proceed
    · obtain ⟨next, between, bytes, hnext⟩ := exists_run_of_result hfirst
      rw [course_cons_of_proceed hnext, List.mem_cons, ih, hnext]
      simp [and_assoc]
    · rw [course_cons_of_stop hfirst]
      have hnone : ∀ next between bytes,
          (act first).run m o ≠ ⟨next, between, bytes, .ok .proceed⟩ :=
        fun next between bytes hnext => hfirst (congrArg Outcome.result hnext)
      simp [hnone]

theorem run_untilBye_append
    (h : (untilBye act taken).run m o = ⟨here, left, bytes, .ok .proceed⟩) (rest : List α) :
    (untilBye act (taken ++ rest)).run m o =
      let later := (untilBye act rest).run here left
      ⟨later.machine, later.outlet, bytes ++ later.written, later.result⟩ := by
  have hresult : ((untilBye act taken).run m o).result = .ok .proceed := by rw [h]
  rw [untilBye_append, run_bind_of_ok hresult, h]
  rfl

/-- A run ends as the first item does that stops it. -/
theorem run_untilBye_of_stop
    (h : (untilBye act taken).run m o = ⟨here, left, bytes, .ok .proceed⟩)
    (hstop : ((act item).run here left).result ≠ .ok .proceed) (rest : List α) :
    (untilBye act (taken ++ item :: rest)).run m o =
      let done := (act item).run here left
      ⟨done.machine, done.outlet, bytes ++ done.written, done.result⟩ := by
  rw [run_untilBye_append h, run_untilBye_cons_of_stop hstop]

/-- A run that does not proceed comes to an item that stops it. -/
theorem exists_stop (h : ((untilBye act items).run m o).result ≠ .ok .proceed) :
    ∃ taken item rest here left bytes, items = taken ++ item :: rest ∧
      (untilBye act taken).run m o = ⟨here, left, bytes, .ok .proceed⟩ ∧
      ((act item).run here left).result ≠ .ok .proceed := by
  induction items generalizing m o with
  | nil => exact absurd rfl h
  | cons first items ih =>
    by_cases hfirst : ((act first).run m o).result = .ok .proceed
    · obtain ⟨next, o', written, hrun⟩ := exists_run_of_result hfirst
      rw [run_untilBye_cons_of_proceed hrun] at h
      obtain ⟨taken, item, rest, here, left, bytes, rfl, htaken, hstop⟩ := ih h
      refine ⟨first :: taken, item, rest, here, left, written ++ bytes, rfl, ?_, hstop⟩
      rw [run_untilBye_cons_of_proceed hrun, htaken]
    · exact ⟨[], first, items, m, o, [], rfl, rfl, hfirst⟩

theorem run_untilBye_append_of_stop (h : ((untilBye act taken).run m o).result ≠ .ok .proceed)
    (rest : List α) : (untilBye act (taken ++ rest)).run m o = (untilBye act taken).run m o := by
  obtain ⟨first, item, behind, here, left, bytes, rfl, hfirst, hstop⟩ := exists_stop h
  rw [List.append_assoc, List.cons_append, run_untilBye_of_stop hfirst hstop,
    run_untilBye_of_stop hfirst hstop]

theorem length_le_of_stop {taken' : List α} {item' : α} {rest rest' : List α} {here' : Machine}
    {left' : Outlet} {bytes' : List UInt8}
    (hitems : taken ++ item :: rest = taken' ++ item' :: rest')
    (h : (untilBye act taken).run m o = ⟨here, left, bytes, .ok .proceed⟩)
    (hstop : ((act item).run here left).result ≠ .ok .proceed)
    (h' : (untilBye act taken').run m o = ⟨here', left', bytes', .ok .proceed⟩) :
    taken'.length ≤ taken.length := by
  apply Nat.le_of_not_lt
  intro hlt
  -- Else the first item that stops the run stands among those that let it proceed.
  have hlength : (taken ++ [item]).length ≤ taken'.length := by
    rw [List.length_append, List.length_singleton]
    omega
  have hfirst : taken ++ [item] <+: taken ++ item :: rest :=
    ⟨rest, (List.append_cons taken item rest).symm⟩
  have hsecond : taken' <+: taken ++ item :: rest := ⟨item' :: rest', hitems.symm⟩
  obtain ⟨between, hbetween⟩ := List.prefix_of_prefix_length_le hfirst hsecond hlength
  rw [← hbetween, List.append_assoc, List.singleton_append, run_untilBye_of_stop h hstop] at h'
  exact hstop (congrArg Outcome.result h')

end ColonForth.Action
