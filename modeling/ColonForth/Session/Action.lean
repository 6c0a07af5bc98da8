import ColonForth.Machine.Evaluation
import ColonForth.Session.Outlet
import ColonForth.Text.Utf8

/-! Actions change the machine, write to the outlet and may fail. What was written and changed
before a failure stays written and changed. -/
namespace ColonForth

/-- What an action came to: the machine and the outlet after it, the bytes that the outlet took
and the result. -/
structure Outcome (α : Type) where
  machine : Machine
  outlet : Outlet
  written : List UInt8
  result : Except Error α

@[ext] structure Action (α : Type) where
  run : Machine → Outlet → Outcome α

namespace Action

/-- A failure of `first` ends the whole; a success is passed on to `next`. -/
def andThen {α β : Type} (first : Action α) (next : α → Action β) : Action β where
  run m o :=
    let done := first.run m o
    match done.result with
    | .error e => ⟨done.machine, done.outlet, done.written, .error e⟩
    | .ok a =>
      let later := (next a).run done.machine done.outlet
      ⟨later.machine, later.outlet, done.written ++ later.written, later.result⟩

instance : Monad Action where
  pure a := ⟨fun m o => ⟨m, o, [], .ok a⟩⟩
  bind := andThen

@[simp] theorem run_pure {α : Type} (a : α) (m : Machine) (o : Outlet) :
    (pure a : Action α).run m o = ⟨m, o, [], .ok a⟩ := rfl

theorem run_bind {α β : Type} (first : Action α) (next : α → Action β) (m : Machine)
    (o : Outlet) : (first >>= next).run m o = (first.andThen next).run m o := rfl

theorem run_bind_of_ok {α β : Type} {first : Action α} {next : α → Action β} {m : Machine}
    {o : Outlet} {a : α} (h : (first.run m o).result = .ok a) :
    (first >>= next).run m o =
      let later := (next a).run (first.run m o).machine (first.run m o).outlet
      ⟨later.machine, later.outlet, (first.run m o).written ++ later.written, later.result⟩ := by
  simp [run_bind, andThen, h]

theorem run_bind_of_error {α β : Type} {first : Action α} {next : α → Action β} {m : Machine}
    {o : Outlet} {e : Error} (h : (first.run m o).result = .error e) :
    (first >>= next).run m o =
      ⟨(first.run m o).machine, (first.run m o).outlet, (first.run m o).written, .error e⟩ := by
  simp [run_bind, andThen, h]

instance : LawfulMonad Action := LawfulMonad.mk' Action
  (by
    intro α x
    ext m o
    simp only [Functor.map, andThen]
    rcases x.run m o with ⟨_, _, _, _ | _⟩ <;> simp)
  (by
    intro α β a next
    ext m o
    simp [run_bind, andThen])
  (by
    intro α β γ x f g
    ext m o
    simp only [run_bind, andThen]
    rcases x.run m o with ⟨m', o', _, _ | a⟩
    · rfl
    · dsimp only
      rcases (f a).run m' o' with ⟨_, _, _, _ | _⟩ <;> simp [List.append_assoc])

def fail {α : Type} (e : Error) : Action α :=
  ⟨fun m o => ⟨m, o, [], .error e⟩⟩

/-- Never fails: a failure of `act` becomes its result. -/
def attempt {α : Type} (act : Action α) : Action (Except Error α) where
  run m o :=
    let done := act.run m o
    ⟨done.machine, done.outlet, done.written, .ok done.result⟩

def delivered {α : Type} (m : Machine) (d : Delivery) (result : Except Error α) : Outcome α :=
  match d.refusal with
  | none => ⟨m, d.outlet, d.taken, result⟩
  | some reason => ⟨m, d.outlet, d.taken, .error (.io reason)⟩

def say (text : String) : Action Unit :=
  ⟨fun m o => delivered m (o.put (Text.Utf8.encode text)) (.ok ())⟩

def flush : Action Unit :=
  ⟨fun m o => delivered m o.flush (.ok ())⟩

@[simp] theorem run_fail {α : Type} (e : Error) (m : Machine) (o : Outlet) :
    (fail e : Action α).run m o = ⟨m, o, [], .error e⟩ := rfl

@[simp] theorem run_attempt {α : Type} (act : Action α) (m : Machine) (o : Outlet) :
    act.attempt.run m o = ⟨(act.run m o).machine, (act.run m o).outlet, (act.run m o).written,
      .ok (act.run m o).result⟩ := rfl

theorem run_flush_of_idle {o : Outlet} (h : o.Idle) (m : Machine) :
    flush.run m o = ⟨m, o, [], .ok ()⟩ := by
  have hflush : o.flush = ⟨[], o, none⟩ := h
  simp [flush, delivered, hflush]

theorem idle_of_run_flush {m : Machine} {o : Outlet} (h : (flush.run m o).result = .ok ()) :
    o.Idle := by
  apply Outlet.idle_of_flush
  cases hrefusal : o.flush.refusal with
  | none => rfl
  | some reason => simp [flush, delivered, hrefusal] at h

end Action

@[macro_inline] def Flow.unlessBye (flow : Flow) (next : Action Flow) : Action Flow :=
  match flow with
  | .bye => pure .bye
  | .proceed => next

@[simp] theorem Flow.unlessBye_bye (next : Action Flow) : Flow.bye.unlessBye next = pure .bye := rfl

@[simp] theorem Flow.unlessBye_proceed (next : Action Flow) :
    Flow.proceed.unlessBye next = next := rfl

namespace Action

/-- Takes the items in turn until one of them says `bye` or fails. -/
def untilBye {α : Type} (act : α → Action Flow) : List α → Action Flow
  | [] => pure .proceed
  | item :: items => do
    let flow ← act item
    flow.unlessBye (untilBye act items)

theorem untilBye_append {α : Type} (act : α → Action Flow) (xs ys : List α) :
    untilBye act (xs ++ ys) =
      untilBye act xs >>= fun flow => flow.unlessBye (untilBye act ys) := by
  induction xs with
  | nil => simp [untilBye]
  | cons x xs ih =>
    simp only [List.cons_append, untilBye, ih, bind_assoc]
    congr 1
    funext flow
    cases flow <;> simp

end Action

end ColonForth
