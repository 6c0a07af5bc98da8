import ColonForth.Proofs.Session.Failure

/-! What actions write on an outlet that refuses nothing. -/
namespace ColonForth
open Text
open ColonForth.Action

namespace Action

variable {α β : Type} {P : Machine → Prop}

/-- On an outlet that refuses nothing the action leads from machines with the property `P` to such
machines, and `Q` holds of the text that it writes and of its result. -/
def Tells (P : Machine → Prop) (act : Action α) (Q : String → Except Error α → Prop) : Prop :=
  ∀ m, P m → ∃ here text result,
    act.run m .endless = ⟨here, .endless, Utf8.encode text, result⟩ ∧ P here ∧ Q text result

theorem Tells.mono {act : Action α} {Q Q' : String → Except Error α → Prop} (h : act.Tells P Q)
    (hQ : ∀ text result, Q text result → Q' text result) : act.Tells P Q' := by
  intro m hm
  obtain ⟨here, text, result, hrun, hhere, htext⟩ := h m hm
  exact ⟨here, text, result, hrun, hhere, hQ text result htext⟩

theorem tells_pure {Q : String → Except Error α → Prop} {a : α} (h : Q "" (.ok a)) :
    (pure a : Action α).Tells P Q :=
  fun m hm => ⟨m, "", .ok a, rfl, hm, h⟩

theorem tells_flush : flush.Tells P fun text result => text = "" ∧ result = .ok () :=
  fun m hm => ⟨m, "", .ok (), rfl, hm, rfl, rfl⟩

theorem tells_say (text : String) :
    (say text).Tells P fun told result => told = text ∧ result = .ok () :=
  fun m hm => ⟨m, text, .ok (), rfl, hm, rfl, rfl⟩

theorem Tells.attempt {act : Action α} {Q : String → Except Error α → Prop} (h : act.Tells P Q) :
    act.attempt.Tells P fun text result => ∃ inner, result = .ok inner ∧ Q text inner := by
  intro m hm
  obtain ⟨here, text, result, hrun, hhere, htext⟩ := h m hm
  refine ⟨here, text, .ok result, ?_, hhere, result, rfl, htext⟩
  rw [run_attempt, hrun]

/-- What two actions tell in turn. A failure of the first one is told as it is. -/
theorem Tells.bind {first : Action α} {next : α → Action β} {Q : String → Except Error α → Prop}
    {Q' : String → Except Error β → Prop} (hfirst : first.Tells P Q)
    (herror : ∀ text e, Q text (.error e) → Q' text (.error e))
    (hnext : ∀ text a, Q text (.ok a) →
      (next a).Tells P fun later result => Q' (text ++ later) result) :
    (first >>= next).Tells P Q' := by
  intro m hm
  obtain ⟨here, text, result, hrun, hhere, htext⟩ := hfirst m hm
  cases result with
  | error e =>
    have hresult : (first.run m .endless).result = .error e := by rw [hrun]
    refine ⟨here, text, .error e, ?_, hhere, herror text e htext⟩
    rw [run_bind_of_error hresult, hrun]
  | ok a =>
    have hresult : (first.run m .endless).result = .ok a := by rw [hrun]
    obtain ⟨there, later, result, hlater, hthere, hboth⟩ := hnext text a htext here hhere
    refine ⟨there, text ++ later, result, ?_, hthere, hboth⟩
    rw [run_bind_of_ok hresult, hrun, hlater, Utf8.encode_append]

theorem tells_untilBye {act : α → Action Flow} {items : List α}
    {Q : String → Except Error Flow → Prop} (hnil : Q "" (.ok .proceed))
    (hitems : ∀ item ∈ items, (act item).Tells P Q)
    (happend : ∀ text later result, Q text (.ok .proceed) → Q later result →
      Q (text ++ later) result) : (untilBye act items).Tells P Q := by
  induction items with
  | nil => exact tells_pure hnil
  | cons item items ih =>
    apply (hitems item List.mem_cons_self).bind fun text e h => h
    intro text flow htext
    cases flow with
    | bye =>
      apply tells_pure
      rw [String.append_empty]
      exact htext
    | proceed =>
      apply (ih fun later hlater => hitems later (List.mem_cons_of_mem item hlater)).mono
      intro later result hlater
      exact happend text later result htext hlater

end Action

theorem tells_sayLine {P : Machine → Prop} (text : String) :
    (sayLine text).Tells P fun told result => told = text ++ "\n" ∧ result = .ok .proceed := by
  apply (tells_say _).bind
  · rintro told e ⟨-, hresult⟩
    cases hresult
  · rintro told _ ⟨rfl, -⟩
    exact tells_pure ⟨String.append_empty, rfl⟩

theorem tells_evalTokens_isRecoverable (tokens : List String) :
    (evalTokens tokens).Tells (fun _ => True)
      fun _ result => ∀ e, result = .error e → e.isRecoverable = true := by
  apply tells_untilBye
  · intro e he
    cases he
  · intro token _ m _
    refine ⟨_, _, _, run_evalToken_endless token m, trivial, ?_⟩
    intro e he
    exact (Machine.evalWithin_of_error he).1
  · intro text later result _ hlater
    exact hlater

/-- No error of the language ends more than a line. -/
theorem tells_interpretLine_ok (line : String) :
    (interpretLine line).Tells (fun _ => True) fun _ result => ∃ flow, result = .ok flow := by
  have hsay : ∀ text, (sayLine text).Tells (fun _ => True)
      fun _ result => ∃ flow, result = .ok flow := by
    intro text
    apply (tells_sayLine text).mono
    intro told result htold
    exact ⟨.proceed, htold.2⟩
  unfold interpretLine
  split
  · exact hsay ""
  · next tokens htokens =>
    apply (tells_evalTokens_isRecoverable tokens).attempt.bind
    · intro text e h
      obtain ⟨inner, hinner, -⟩ := h
      cases hinner
    · intro text result h
      obtain ⟨inner, hinner, hrecoverable⟩ := h
      cases hinner
      unfold report
      split
      · exact tells_pure ⟨.bye, rfl⟩
      · exact hsay " ok"
      · next e =>
        rw [if_pos (hrecoverable e rfl)]
        exact hsay e.message

end ColonForth
