import ColonForth.Proofs.Session.Course
import ColonForth.Session.Line
import Mathlib.Data.List.TakeDrop

/-! Actions and outlets with little room. An action is severed where the room ends, with the machine
as it was at the write that did not fit. -/
namespace ColonForth.Action

variable {α β : Type}

/-- What the action comes to when nothing is refused. -/
def free (act : Action α) (m : Machine) : Outcome α :=
  act.run m .endless

def size (act : Action α) (m : Machine) : Nat :=
  (act.free m).written.length

/-- With enough room the action does what it does without a limit. Else it writes what fits and
fails, and `cut m room` holds of nothing but the machine that it leaves. -/
structure Severed (act : Action α) (cut : Machine → Nat → Machine → Prop) : Prop where
  endless : ∀ m, (act.free m).outlet = .endless
  fits : ∀ m room reason, act.size m ≤ room →
    act.run m (.limited room reason) =
      ⟨(act.free m).machine, .limited (room - act.size m) reason, (act.free m).written,
        (act.free m).result⟩
  severed : ∀ m room reason, room < act.size m → ∃ left,
    act.run m (.limited room reason) =
      ⟨left, .limited 0 reason, (act.free m).written.take room, .error (.io reason)⟩ ∧
      ∀ other, cut m room other ↔ other = left

theorem Severed.congr {act : Action α} {cut cut' : Machine → Nat → Machine → Prop}
    (h : act.Severed cut)
    (hcut : ∀ m room left, room < act.size m → (cut' m room left ↔ cut m room left)) :
    act.Severed cut' := by
  refine ⟨h.endless, h.fits, ?_⟩
  intro m room reason hroom
  obtain ⟨left, hrun, hleft⟩ := h.severed m room reason hroom
  refine ⟨left, hrun, fun other => ?_⟩
  rw [hcut m room other hroom]
  exact hleft other

/-! ### Single actions -/

theorem severed_of_silent {act : Action α} {after : Machine → Machine}
    {result : Machine → Except Error α}
    (hendless : ∀ m, act.run m .endless = ⟨after m, .endless, [], result m⟩)
    (hlimited : ∀ m room reason, act.run m (.limited room reason) =
      ⟨after m, .limited room reason, [], result m⟩) :
    act.Severed fun _ _ _ => False := by
  have hfree : ∀ m, act.free m = ⟨after m, .endless, [], result m⟩ := hendless
  have hsize : ∀ m, act.size m = 0 := by
    intro m
    rw [size, hfree, List.length_nil]
  refine ⟨fun m => by rw [hfree], ?_, ?_⟩
  · intro m room reason _
    rw [hlimited, hsize, hfree, Nat.sub_zero]
  · intro m room reason hroom
    rw [hsize] at hroom
    exact absurd hroom (Nat.not_lt_zero room)

theorem Severed.size_eq_zero {act : Action α} (h : act.Severed fun _ _ _ => False) (m : Machine) :
    act.size m = 0 := by
  apply Nat.eq_zero_of_not_pos
  intro hpos
  obtain ⟨left, -, hleft⟩ := h.severed m 0 "" hpos
  exact (hleft left).mpr rfl

theorem Severed.of_silent {act : Action α} (h : act.Severed fun _ _ _ => False)
    (cut : Machine → Nat → Machine → Prop) : act.Severed cut := by
  apply h.congr
  intro m room left hroom
  rw [h.size_eq_zero m] at hroom
  exact absurd hroom (Nat.not_lt_zero room)

theorem severed_pure (a : α) : (pure a : Action α).Severed fun _ _ _ => False :=
  severed_of_silent (fun _ => rfl) fun _ _ _ => rfl

theorem severed_fail (e : Error) : (fail e : Action α).Severed fun _ _ _ => False :=
  severed_of_silent (fun _ => rfl) fun _ _ _ => rfl

/-- An action that makes one write after it has changed the machine. -/
theorem severed_of_put {act : Action α} {after : Machine → Machine} {bytes : Machine → List UInt8}
    {result : Machine → Except Error α}
    (hendless : ∀ m, act.run m .endless = ⟨after m, .endless, bytes m, result m⟩)
    (hlimited : ∀ m room reason, act.run m (.limited room reason) =
      delivered (after m) ((Outlet.limited room reason).put (bytes m)) (result m)) :
    act.Severed fun m _ left => left = after m := by
  have hfree : ∀ m, act.free m = ⟨after m, .endless, bytes m, result m⟩ := hendless
  have hsize : ∀ m, act.size m = (bytes m).length := by
    intro m
    rw [size, hfree]
  refine ⟨fun m => by rw [hfree], ?_, ?_⟩
  · intro m room reason hroom
    rw [hsize] at hroom ⊢
    rw [hlimited, hfree, Outlet.put]
    simp only [if_pos hroom, delivered]
  · intro m room reason hroom
    rw [hsize] at hroom
    refine ⟨after m, ?_, fun other => Iff.rfl⟩
    rw [hlimited, hfree, Outlet.put]
    simp only [if_neg (Nat.not_le_of_lt hroom), delivered]

theorem severed_say (text : String) : (say text).Severed fun m _ left => left = m :=
  severed_of_put (fun _ => rfl) fun _ _ _ => rfl

/-! ### Actions in turn -/

theorem run_attempt_bind (act : Action α) (next : Except Error α → Action β) (m : Machine)
    (o : Outlet) :
    (act.attempt >>= next).run m o =
      let later := (next (act.run m o).result).run (act.run m o).machine (act.run m o).outlet
      ⟨later.machine, later.outlet, (act.run m o).written ++ later.written, later.result⟩ := rfl

/-- A refused write ends an action that looks at the result of another one, if it fails as that one
has failed. -/
theorem Severed.attempt_bind {act : Action α} {next : Except Error α → Action β}
    {cut : Machine → Nat → Machine → Prop}
    {cut' : Except Error α → Machine → Nat → Machine → Prop} (h : act.Severed cut)
    (hnext : ∀ result, (next result).Severed (cut' result))
    (hio : ∀ reason, next (.error (.io reason)) = fail (.io reason)) :
    (act.attempt >>= next).Severed fun m room left =>
      (room < act.size m ∧ cut m room left) ∨
        (act.size m ≤ room ∧
          cut' (act.free m).result (act.free m).machine (room - act.size m) left) := by
  have hfree : ∀ m, (act.attempt >>= next).free m =
      let later := (next (act.free m).result).free (act.free m).machine
      ⟨later.machine, later.outlet, (act.free m).written ++ later.written, later.result⟩ := by
    intro m
    rw [free, run_attempt_bind]
    have hout : (act.run m .endless).outlet = .endless := h.endless m
    rw [hout]
    rfl
  have hsize : ∀ m, (act.attempt >>= next).size m =
      act.size m + (next (act.free m).result).size (act.free m).machine := by
    intro m
    rw [size, hfree, List.length_append]
    rfl
  refine ⟨?_, ?_, ?_⟩
  · intro m
    rw [hfree]
    exact (hnext _).endless _
  · intro m room reason hroom
    rw [hsize] at hroom ⊢
    rw [run_attempt_bind, h.fits m room reason (by omega), hfree]
    dsimp only
    rw [(hnext _).fits _ _ reason (by omega), Nat.sub_sub]
  · intro m room reason hroom
    rw [hsize] at hroom
    rw [run_attempt_bind, hfree]
    -- The room ends in the first action, whose failure is passed on, or in what follows it.
    by_cases hfirst : room < act.size m
    · obtain ⟨left, hrun, hleft⟩ := h.severed m room reason hfirst
      refine ⟨left, ?_, fun other => ?_⟩
      · rw [hrun]
        dsimp only
        rw [hio, run_fail, List.append_nil, List.take_append_of_le_length (Nat.le_of_lt hfirst)]
      · rw [← hleft other]
        simp [hfirst, Nat.not_le_of_lt hfirst]
    · have hle := Nat.le_of_not_lt hfirst
      obtain ⟨left, hrun, hleft⟩ := (hnext (act.free m).result).severed (act.free m).machine
        (room - act.size m) reason (by omega)
      refine ⟨left, ?_, fun other => ?_⟩
      · rw [h.fits m room reason hle]
        dsimp only
        rw [hrun, List.take_append, List.take_of_length_le hle]
        rfl
      · rw [← hleft other]
        simp [hfirst, hle]

def passOn (next : α → Action β) : Except Error α → Action β
  | .ok a => next a
  | .error e => fail e

theorem bind_eq_attempt_bind (first : Action α) (next : α → Action β) :
    first >>= next = first.attempt >>= passOn next := by
  ext m o
  rw [run_attempt_bind]
  cases hresult : (first.run m o).result with
  | error e =>
    rw [run_bind_of_error hresult, passOn, run_fail]
    simp only [List.append_nil]
  | ok a =>
    rw [run_bind_of_ok hresult, passOn]

theorem Severed.bind {first : Action α} {next : α → Action β}
    {cut : Machine → Nat → Machine → Prop} {cut' : α → Machine → Nat → Machine → Prop}
    (hfirst : first.Severed cut) (hnext : ∀ a, (next a).Severed (cut' a)) :
    (first >>= next).Severed fun m room left =>
      (room < first.size m ∧ cut m room left) ∨
        ∃ a, (first.free m).result = .ok a ∧ first.size m ≤ room ∧
          cut' a (first.free m).machine (room - first.size m) left := by
  have hlater : ∀ result, (passOn next result).Severed fun m room left =>
      ∃ a, result = .ok a ∧ cut' a m room left := by
    intro result
    cases result with
    | ok a =>
      apply (hnext a).congr
      intro m room left _
      simp
    | error e => exact (severed_fail e).of_silent _
  rw [bind_eq_attempt_bind]
  apply (hfirst.attempt_bind hlater fun _ => rfl).congr
  intro m room left _
  apply or_congr Iff.rfl
  constructor
  · rintro ⟨a, hresult, hle, hcut⟩
    exact ⟨hle, a, hresult, hcut⟩
  · rintro ⟨hle, a, hresult, hcut⟩
    exact ⟨a, hresult, hle, hcut⟩

theorem free_bind_of_ok {first : Action α} {next : α → Action β} {m : Machine} {a : α}
    (hendless : (first.free m).outlet = .endless) (h : (first.free m).result = .ok a) :
    (first >>= next).free m =
      let later := (next a).free (first.free m).machine
      ⟨later.machine, later.outlet, (first.free m).written ++ later.written, later.result⟩ := by
  have hout : (first.run m .endless).outlet = .endless := hendless
  rw [free, run_bind_of_ok h, hout]
  rfl

theorem free_bind_of_error {first : Action α} {next : α → Action β} {m : Machine} {e : Error}
    (h : (first.free m).result = .error e) :
    (first >>= next).free m =
      ⟨(first.free m).machine, (first.free m).outlet, (first.free m).written, .error e⟩ := by
  rw [free, run_bind_of_error h]
  rfl

theorem size_bind_of_ok {first : Action α} {next : α → Action β} {m : Machine} {a : α}
    (hendless : (first.free m).outlet = .endless) (h : (first.free m).result = .ok a) :
    (first >>= next).size m = first.size m + (next a).size (first.free m).machine := by
  rw [size, free_bind_of_ok hendless h, List.length_append]
  rfl

theorem size_le_size_bind {first : Action α} (next : α → Action β) {m : Machine}
    (hendless : (first.free m).outlet = .endless) : first.size m ≤ (first >>= next).size m := by
  cases hresult : (first.free m).result with
  | error e =>
    simp only [size, free_bind_of_error hresult, Nat.le_refl]
  | ok a =>
    rw [size_bind_of_ok hendless hresult]
    exact Nat.le_add_right _ _

/-- A second part that writes nothing is never reached with too little room. -/
theorem Severed.bind_silent {first : Action α} {next : α → Action β}
    {cut : Machine → Nat → Machine → Prop} (h : first.Severed cut)
    (hnext : ∀ a, (next a).Severed fun _ _ _ => False) : (first >>= next).Severed cut := by
  apply (h.bind hnext).congr
  intro m room left hroom
  have hfirst : room < first.size m := by
    cases hresult : (first.free m).result with
    | error e =>
      rw [size, free_bind_of_error hresult] at hroom
      exact hroom
    | ok a =>
      rw [size_bind_of_ok (h.endless m) hresult, (hnext a).size_eq_zero, Nat.add_zero] at hroom
      exact hroom
  simp [hfirst]

/-! ### Items in turn -/

theorem untilBye_singleton (act : α → Action Flow) (item : α) : untilBye act [item] = act item := by
  have hpure : ∀ flow : Flow, flow.unlessBye (pure .proceed) = pure flow := by
    intro flow
    cases flow <;> rfl
  simp only [untilBye, hpure, bind_pure]

theorem untilBye_concat (act : α → Action Flow) (items : List α) (item : α) :
    untilBye act (items ++ [item]) =
      untilBye act items >>= fun flow => flow.unlessBye (act item) := by
  rw [untilBye_append, untilBye_singleton]

theorem untilBye_cons_of_proceed {act : α → Action Flow} {item : α} {m : Machine}
    (hendless : ((act item).free m).outlet = .endless)
    (h : ((act item).free m).result = .ok .proceed) (items : List α) :
    ((untilBye act (item :: items)).free m).machine =
        ((untilBye act items).free ((act item).free m).machine).machine ∧
      ((untilBye act (item :: items)).free m).result =
        ((untilBye act items).free ((act item).free m).machine).result ∧
      (untilBye act (item :: items)).size m =
        (act item).size m + (untilBye act items).size ((act item).free m).machine := by
  rw [untilBye, size_bind_of_ok hendless h, free_bind_of_ok hendless h]
  exact ⟨rfl, rfl, rfl⟩

theorem proceed_of_untilBye_cons {act : α → Action Flow} {item : α} {items : List α} {m : Machine}
    (h : ((untilBye act (item :: items)).free m).result = .ok .proceed) :
    ((act item).free m).result = .ok .proceed := by
  by_contra hstop
  rw [free, run_untilBye_cons_of_stop hstop] at h
  exact hstop h

/-- The item of a list at which the room ends, and `cut` with the room that is left to the item. -/
def CutAmong (act : α → Action Flow) (cut : α → Machine → Nat → Machine → Prop) (items : List α)
    (m : Machine) (room : Nat) (left : Machine) : Prop :=
  ∃ taken item rest, items = taken ++ item :: rest ∧
    ((untilBye act taken).free m).result = .ok .proceed ∧
    (untilBye act taken).size m ≤ room ∧ room < (untilBye act (taken ++ [item])).size m ∧
    cut item ((untilBye act taken).free m).machine (room - (untilBye act taken).size m) left

/-- The room ends at the first item, or at an item behind it with what the first one leaves. -/
theorem cutAmong_cons {act : α → Action Flow} {cut : α → Machine → Nat → Machine → Prop} {item : α}
    {m : Machine} (hendless : ((act item).free m).outlet = .endless) (items : List α) (room : Nat)
    (left : Machine) :
    CutAmong act cut (item :: items) m room left ↔
      (room < (act item).size m ∧ cut item m room left) ∨
        (((act item).free m).result = .ok .proceed ∧ (act item).size m ≤ room ∧
          CutAmong act cut items ((act item).free m).machine (room - (act item).size m) left) := by
  constructor
  · rintro ⟨taken, other, rest, hitems, hresult, hfrom, hto, hcut⟩
    cases taken with
    | nil =>
      obtain ⟨rfl, rfl⟩ := List.cons.inj hitems
      rw [List.nil_append, untilBye_singleton] at hto
      exact Or.inl ⟨hto, hcut⟩
    | cons first taken =>
      obtain ⟨rfl, hrest⟩ := List.cons.inj hitems
      have hproceed := proceed_of_untilBye_cons hresult
      obtain ⟨hmachine, hflow, hsize⟩ := untilBye_cons_of_proceed hendless hproceed taken
      obtain ⟨-, -, hsize'⟩ := untilBye_cons_of_proceed hendless hproceed (taken ++ [other])
      rw [hflow] at hresult
      rw [hsize] at hfrom hcut
      rw [List.cons_append, hsize'] at hto
      rw [hmachine, ← Nat.sub_sub] at hcut
      exact Or.inr
        ⟨hproceed, by omega, taken, other, rest, hrest, hresult, by omega, by omega, hcut⟩
  · rintro (⟨hroom, hcut⟩ | ⟨hproceed, hle, taken, other, rest, rfl, hresult, hfrom, hto, hcut⟩)
    · refine ⟨[], item, items, rfl, rfl, Nat.zero_le room, ?_, hcut⟩
      rw [List.nil_append, untilBye_singleton]
      exact hroom
    · obtain ⟨hmachine, hflow, hsize⟩ := untilBye_cons_of_proceed hendless hproceed taken
      obtain ⟨-, -, hsize'⟩ := untilBye_cons_of_proceed hendless hproceed (taken ++ [other])
      refine ⟨item :: taken, other, rest, rfl, hflow.trans hresult, by omega, ?_, ?_⟩
      · rw [List.cons_append, hsize']
        omega
      · rw [hmachine, hsize, ← Nat.sub_sub]
        exact hcut

theorem severed_untilBye {act : α → Action Flow} {cut : α → Machine → Nat → Machine → Prop}
    (h : ∀ item, (act item).Severed (cut item)) (items : List α) :
    (untilBye act items).Severed (CutAmong act cut items) := by
  induction items with
  | nil =>
    apply (severed_pure Flow.proceed).congr
    intro m room left hroom
    exact absurd hroom (Nat.not_lt_zero room)
  | cons item items ih =>
    have hlater : ∀ flow : Flow, (flow.unlessBye (untilBye act items)).Severed
        fun m room left => flow = .proceed ∧ CutAmong act cut items m room left := by
      intro flow
      cases flow with
      | bye => exact (severed_pure Flow.bye).of_silent _
      | proceed =>
        apply ih.congr
        intro m room left _
        simp
    apply ((h item).bind hlater).congr
    intro m room left _
    rw [cutAmong_cons ((h item).endless m)]
    apply or_congr Iff.rfl
    constructor
    · rintro ⟨hproceed, hle, hcut⟩
      exact ⟨.proceed, hproceed, hle, rfl, hcut⟩
    · rintro ⟨flow, hflow, hle, rfl, hcut⟩
      exact ⟨hflow, hle, hcut⟩

theorem CutAmong.lt_size {act : α → Action Flow} {cut cut' : α → Machine → Nat → Machine → Prop}
    (h : ∀ item, (act item).Severed (cut' item)) {items : List α} {m : Machine} {room : Nat}
    {left : Machine} (hcut : CutAmong act cut items m room left) :
    room < (untilBye act items).size m := by
  obtain ⟨taken, item, rest, rfl, -, -, hto, -⟩ := hcut
  have hendless := (severed_untilBye h (taken ++ [item])).endless m
  apply Nat.lt_of_lt_of_le hto
  rw [List.append_cons taken item rest, untilBye_append act (taken ++ [item]) rest]
  exact size_le_size_bind _ hendless

end ColonForth.Action
