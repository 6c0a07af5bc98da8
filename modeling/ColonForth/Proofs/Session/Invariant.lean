import ColonForth.Session.Line

/-! What every token of a line keeps is kept by the whole line. -/
namespace ColonForth

/-- The action leads from machines with the property `P` to such machines, also when it fails. -/
def Action.Keeps {α : Type} (P : Machine → Prop) (act : Action α) : Prop :=
  ∀ m o, P m → P (act.run m o).machine

namespace Action

variable {α β : Type} {P : Machine → Prop}

theorem machine_delivered (m : Machine) (d : Delivery) (result : Except Error α) :
    (delivered m d result).machine = m := by
  unfold delivered
  split <;> rfl

theorem keeps_pure (a : α) : (pure a : Action α).Keeps P := fun _ _ h => h

theorem keeps_fail (e : Error) : (fail e : Action α).Keeps P := fun _ _ h => h

theorem keeps_say (text : String) : (say text).Keeps P := by
  intro m o h
  rw [say, machine_delivered]
  exact h

theorem Keeps.attempt {act : Action α} (h : act.Keeps P) : act.attempt.Keeps P := fun m o => h m o

theorem Keeps.bind {first : Action α} {next : α → Action β} (hfirst : first.Keeps P)
    (hnext : ∀ a, (next a).Keeps P) : (first >>= next).Keeps P := by
  intro m o h
  cases hresult : (first.run m o).result with
  | error e =>
    rw [run_bind_of_error hresult]
    exact hfirst m o h
  | ok a =>
    rw [run_bind_of_ok hresult]
    exact hnext a _ _ (hfirst m o h)

theorem keeps_untilBye {act : α → Action Flow} {items : List α}
    (h : ∀ item ∈ items, (act item).Keeps P) : (untilBye act items).Keeps P := by
  induction items with
  | nil => exact keeps_pure Flow.proceed
  | cons item items ih =>
    apply (h item List.mem_cons_self).bind
    intro flow
    cases flow with
    | bye => exact keeps_pure Flow.bye
    | proceed => exact ih fun later hlater => h later (List.mem_cons_of_mem item hlater)

end Action

theorem keeps_sayLine {P : Machine → Prop} (text : String) : (sayLine text).Keeps P :=
  (Action.keeps_say _).bind fun _ => Action.keeps_pure _

theorem keeps_report {P : Machine → Prop} (result : Except Error Flow) :
    (report result).Keeps P := by
  unfold report
  split
  · exact Action.keeps_pure Flow.bye
  · exact keeps_sayLine _
  · split
    · exact keeps_sayLine _
    · exact Action.keeps_fail _

theorem interpretLine_of_tokens {line : String} {tokens : List String}
    (h : foldClause (Text.words line) = .ok tokens) :
    interpretLine line = (evalTokens tokens).attempt >>= report := by
  rw [interpretLine, h]

theorem machine_interpretLine {line : String} {tokens : List String}
    (h : foldClause (Text.words line) = .ok tokens) (m : Machine) (o : Outlet) :
    ((interpretLine line).run m o).machine = ((evalTokens tokens).run m o).machine := by
  have hreport : ∀ result, (report result).Keeps
      fun after => after = ((evalTokens tokens).run m o).machine :=
    fun result => keeps_report result
  rw [interpretLine_of_tokens h]
  exact hreport _ _ _ rfl

theorem machine_interpretLine_rejected {line : String} {e : Error}
    (h : foldClause (Text.words line) = .error e) (m : Machine) (o : Outlet) :
    ((interpretLine line).run m o).machine = m := by
  have hline : (sayLine "").Keeps fun after => after = m := keeps_sayLine ""
  rw [interpretLine, h]
  exact hline m o rfl

/-- A token is evaluated in the same way whatever becomes of its text. -/
theorem keeps_evalToken {P : Machine → Prop} {token : String}
    (h : ∀ m, P m → P (m.evalWord token).machine) : (evalToken token).Keeps P := by
  intro m o hm
  rw [evalToken, Action.machine_delivered]
  exact h m hm

theorem keeps_evalTokens {P : Machine → Prop} {tokens : List String}
    (h : ∀ token ∈ tokens, ∀ m, P m → P (m.evalWord token).machine) :
    (evalTokens tokens).Keeps P :=
  Action.keeps_untilBye fun token htoken => keeps_evalToken (h token htoken)

/-- What the tokens of a line keep is kept by the line. -/
theorem keeps_interpretLine {P : Machine → Prop} {line : String}
    (h : ∀ tokens, foldClause (Text.words line) = .ok tokens → ∀ token ∈ tokens,
      ∀ m, P m → P (m.evalWord token).machine) : (interpretLine line).Keeps P := by
  unfold interpretLine
  split
  · exact keeps_sayLine ""
  · next tokens htokens =>
    apply (keeps_evalTokens (h tokens htokens)).attempt.bind
    intro result
    exact keeps_report result

end ColonForth
