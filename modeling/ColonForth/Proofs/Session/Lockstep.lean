import ColonForth.Proofs.Alias.Chain
import ColonForth.Proofs.Session.Course
import ColonForth.Proofs.Session.Invariant
import ColonForth.Proofs.Session.Reading

/-! Two runs of the same action from machines in a relation `R` are alike if they lead to such
machines again and nothing outside tells them apart. -/
namespace ColonForth

/-- The machines are in the relation, and all else about the effects is the same. -/
structure Effect.Alike (R : Machine → Machine → Prop) (x y : Effect) : Prop where
  machines : R x.machine y.machine
  printed_eq : y.printed = x.printed
  result_eq : y.result = x.result

/-- The machines are in the relation, and all that can be seen from outside is the same. -/
structure Outcome.Alike {α : Type} (R : Machine → Machine → Prop) (x y : Outcome α) : Prop where
  machines : R x.machine y.machine
  outlet_eq : y.outlet = x.outlet
  written_eq : y.written = x.written
  result_eq : y.result = x.result

namespace Action

variable {α β : Type} {R : Machine → Machine → Prop} {m m' : Machine} {o : Outlet}

theorem alike_pure (h : R m m') (a : α) (o : Outlet) :
    ((pure a : Action α).run m o).Alike R ((pure a : Action α).run m' o) :=
  ⟨h, rfl, rfl, rfl⟩

theorem alike_fail (h : R m m') (e : Error) (o : Outlet) :
    ((fail e : Action α).run m o).Alike R ((fail e : Action α).run m' o) :=
  ⟨h, rfl, rfl, rfl⟩

theorem alike_delivered (h : R m m') (d : Delivery) (result : Except Error α) :
    (delivered m d result).Alike R (delivered m' d result) := by
  unfold delivered
  split <;> exact ⟨h, rfl, rfl, rfl⟩

theorem alike_attempt {act : Action α} (h : (act.run m o).Alike R (act.run m' o)) :
    (act.attempt.run m o).Alike R (act.attempt.run m' o) :=
  ⟨h.machines, h.outlet_eq, h.written_eq, congrArg Except.ok h.result_eq⟩

theorem alike_bind {first : Action α} {next : α → Action β}
    (hfirst : (first.run m o).Alike R (first.run m' o))
    (hnext : ∀ a here here' left bytes, first.run m o = ⟨here, left, bytes, .ok a⟩ →
      R here here' → ((next a).run here left).Alike R ((next a).run here' left)) :
    ((first >>= next).run m o).Alike R ((first >>= next).run m' o) := by
  obtain ⟨hmachines, houtlet, hwritten, hresult⟩ := hfirst
  cases hdone : (first.run m o).result with
  | error e =>
    rw [hdone] at hresult
    rw [run_bind_of_error hdone, run_bind_of_error hresult]
    exact ⟨hmachines, houtlet, hwritten, rfl⟩
  | ok a =>
    rw [hdone] at hresult
    have hlater := hnext a _ _ _ _ (by rw [← hdone]) hmachines
    rw [run_bind_of_ok hdone, run_bind_of_ok hresult, houtlet, hwritten]
    refine ⟨hlater.machines, hlater.outlet_eq, ?_, hlater.result_eq⟩
    exact congrArg ((first.run m o).written ++ ·) hlater.written_eq

/-- Runs over items are alike if they are so at each item that the first run comes to. -/
theorem alike_untilBye {act : α → Action Flow} {items : List α} (hR : R m m')
    (h : ∀ item here here' left, ComesTo act items m o item here left → R here here' →
      ((act item).run here left).Alike R ((act item).run here' left)) :
    ((untilBye act items).run m o).Alike R ((untilBye act items).run m' o) := by
  induction items generalizing m m' o with
  | nil => exact alike_pure hR Flow.proceed o
  | cons item items ih =>
    rw [untilBye]
    apply alike_bind (h item m m' o (comesTo_cons_iff.mpr (Or.inl ⟨rfl, rfl, rfl⟩)) hR)
    intro flow here here' left bytes hrun hhere
    cases flow with
    | bye => exact alike_pure hhere Flow.bye left
    | proceed =>
      apply ih hhere
      intro later there there' last hcomes
      exact h later there there' last
        (comesTo_cons_iff.mpr (Or.inr ⟨here, left, bytes, hrun, hcomes⟩))

end Action

open ColonForth.Action

variable {R : Machine → Machine → Prop} {m m' : Machine}

/-! ### Words -/

namespace Machine

theorem alike_failing (h : R m m') (e : Error) : (m.failing e).Alike R (m'.failing e) :=
  ⟨h, rfl, rfl⟩

/-- Both machines follow the same aliases. A definition or a numeral at the end of the chain does
the same to both, and a builtin word is looked at by `hperform`. -/
theorem alike_evalWithin (h : R m m') (hmeaning : ∀ word, m'.meaning word = m.meaning word)
    (hentry : ∀ name body, R { m with dictionary := m.dictionary.define name body }
      { m' with dictionary := m'.dictionary.define name body })
    (hpush : ∀ n, R { m with stack := m.stack.push n } { m' with stack := m'.stack.push n })
    {budget : Nat} {word : String}
    (hperform : ∀ b, ∀ n ≤ budget, m.dictionary.chain word n = some b.name →
      m.evalWithin budget word = m.perform b → (m.perform b).Alike R (m'.perform b)) :
    (m.evalWithin budget word).Alike R (m'.evalWithin budget word) := by
  fun_induction evalWithin m budget word with
  | case1 budget word b hb =>
    rw [evalWithin.eq_def m', hmeaning, hb]
    exact hperform b 0 (Nat.zero_le budget) (congrArg some (eq_name_of_meaning hb)) rfl
  | case2 word body hbody =>
    rw [evalWithin.eq_def m', hmeaning, hbody]
    exact alike_failing h _
  | case3 word body hbody budget ih =>
    rw [evalWithin.eq_def m', hmeaning, hbody]
    have halias := (meaning_eq_entry_iff m word body).mp hbody
    apply ih
    intro b n hn hchain
    rw [← Dictionary.chain_succ_of_alias halias] at hchain
    exact hperform b (n + 1) (Nat.succ_le_succ hn) hchain
  | case4 budget word hdefinition =>
    rw [evalWithin.eq_def m', hmeaning, hdefinition]
    unfold define
    cases Definition.ofClause word with
    | error e => exact alike_failing h e
    | ok d => exact ⟨hentry d.name d.body, rfl, rfl⟩
  | case5 budget word n hn =>
    rw [evalWithin.eq_def m', hmeaning, hn]
    exact ⟨hpush n, rfl, rfl⟩
  | case6 budget word hunknown =>
    rw [evalWithin.eq_def m', hmeaning, hunknown]
    exact alike_failing h _

theorem alike_perform (h : R m m') (hstack : m'.stack = m.stack)
    (hwith : ∀ s, R { m with stack := s } { m' with stack := s }) (b : Builtin) :
    (m.perform b).Alike R (m'.perform b) := by
  cases b with
  | bye => exact ⟨h, rfl, rfl⟩
  | printStack => exact ⟨h, congrArg Stack.listing hstack, rfl⟩
  | print =>
    rw [perform_print, perform_print, hstack]
    cases m.stack.pop? with
    | none => exact alike_failing h _
    | some top => exact ⟨hwith top.2, rfl, rfl⟩
  | add =>
    rw [perform_add, perform_add, hstack]
    cases m.stack.add? with
    | none => exact alike_failing h _
    | some sum => exact ⟨hwith sum, rfl, rfl⟩

theorem alike_evalWithin_of_stack_eq (h : R m m') (hstack : m'.stack = m.stack)
    (hmeaning : ∀ word, m'.meaning word = m.meaning word)
    (hentry : ∀ name body, R { m with dictionary := m.dictionary.define name body }
      { m' with dictionary := m'.dictionary.define name body })
    (hwith : ∀ s, R { m with stack := s } { m' with stack := s }) (budget : Nat) (word : String) :
    (m.evalWithin budget word).Alike R (m'.evalWithin budget word) := by
  apply alike_evalWithin h hmeaning hentry
  · intro n
    rw [hstack]
    exact hwith (m.stack.push n)
  · intro b _ _ _ _
    exact alike_perform h hstack hwith b

theorem maxDepth_evalWithin (m : Machine) (budget : Nat) (word : String) :
    (m.evalWithin budget word).machine.maxDepth = m.maxDepth := by
  have halike : (m.evalWithin budget word).Alike (fun here _ => here.maxDepth = m.maxDepth)
      (m.evalWithin budget word) := by
    apply alike_evalWithin_of_stack_eq <;> intros <;> rfl
  exact halike.machines

end Machine

theorem alike_evalToken {token : String} (h : (m.evalWord token).Alike R (m'.evalWord token))
    (o : Outlet) : ((evalToken token).run m o).Alike R ((evalToken token).run m' o) := by
  obtain ⟨hmachines, hprinted, hresult⟩ := h
  simp only [evalToken, hprinted, hresult]
  exact alike_delivered hmachines _ _

/-! ### The parts of a session that do not look at the machine -/

theorem alike_sayLine (h : R m m') (text : String) (o : Outlet) :
    ((sayLine text).run m o).Alike R ((sayLine text).run m' o) := by
  apply alike_bind (alike_delivered h _ _)
  intro _ here here' left _ _ hhere
  exact alike_pure hhere Flow.proceed left

theorem alike_report (h : R m m') (result : Except Error Flow) (o : Outlet) :
    ((report result).run m o).Alike R ((report result).run m' o) := by
  unfold report
  split
  · exact alike_pure h Flow.bye o
  · exact alike_sayLine h _ o
  · split
    · exact alike_sayLine h _ o
    · exact alike_fail h _ o

theorem alike_echoLine (h : R m m') (echo : Bool) (line : String) (o : Outlet) :
    ((Session.echoLine echo line).run m o).Alike R ((Session.echoLine echo line).run m' o) := by
  unfold Session.echoLine
  split
  · exact alike_delivered h _ _
  · exact alike_pure h () o

theorem alike_finish (h : R m m') (ending : Ending) (flow : Flow) (o : Outlet) :
    ((Session.finish ending flow).run m o).Alike R ((Session.finish ending flow).run m' o) := by
  unfold Session.finish
  split
  · exact alike_pure h SessionEnd.bye o
  · apply alike_bind (alike_delivered h _ _)
    intro _ here here' left _ _ hhere
    exact alike_pure hhere SessionEnd.endOfInput left
  · exact alike_fail h _ o

/-! ### Lines and sessions -/

theorem alike_interpretLine (hR : R m m') {line : String} {o : Outlet}
    (h : ∀ tokens, foldClause (Text.words line) = .ok tokens → ∀ token here here' left,
      ComesTo evalToken tokens m o token here left → R here here' →
        ((evalToken token).run here left).Alike R ((evalToken token).run here' left)) :
    ((interpretLine line).run m o).Alike R ((interpretLine line).run m' o) := by
  unfold interpretLine
  split
  · exact alike_sayLine hR "" o
  · next tokens htokens =>
    apply alike_bind (alike_attempt (alike_untilBye hR (h tokens htokens)))
    intro result here here' left _ _ hhere
    exact alike_report hhere result left

namespace Session

/-- The session evaluates `token` on the machine `here`, with the outlet `left` to print on: it
comes to a line, writes the echo, and the tokens of the line come to `token`. -/
inductive Evaluates (echo : Bool) (input : Input) (m : Machine) (o : Outlet) (token : String)
    (here : Machine) (left : Outlet) : Prop
  | intro (raw : List UInt8) (start : Machine) (before after : Outlet) (bytes : List UInt8)
      (tokens : List String) (hline : ComesTo (takeLine echo) input.lines m o raw start before)
      (hecho : (echoLine echo (Text.Utf8.decodeLossy raw)).run start before =
        ⟨start, after, bytes, .ok ()⟩)
      (htokens : foldClause (Text.words (Text.Utf8.decodeLossy raw)) = .ok tokens)
      (htoken : ComesTo evalToken tokens start after token here left)

theorem keeps_echoLine {P : Machine → Prop} (echo : Bool) (line : String) :
    (echoLine echo line).Keeps P := by
  unfold echoLine
  split
  · exact keeps_say _
  · exact keeps_pure ()

theorem machine_echoLine {echo : Bool} {line : String} {m here : Machine} {o left : Outlet}
    {bytes : List UInt8} {result : Except Error Unit}
    (h : (echoLine echo line).run m o = ⟨here, left, bytes, result⟩) : here = m := by
  have hkeeps : (echoLine echo line).Keeps fun after => after = m := keeps_echoLine echo line
  have hmachine := hkeeps m o rfl
  rw [h] at hmachine
  exact hmachine

/-- Sessions are alike if they are so at each token that the first of them evaluates. -/
theorem alike_run (hR : R m m') {echo : Bool} {input : Input} {o : Outlet}
    (h : ∀ token here here' left, Evaluates echo input m o token here left → R here here' →
      ((evalToken token).run here left).Alike R ((evalToken token).run here' left)) :
    ((run echo input).run m o).Alike R ((run echo input).run m' o) := by
  have hlines : ∀ raw start start' before,
      ComesTo (takeLine echo) input.lines m o raw start before → R start start' →
        ((takeLine echo raw).run start before).Alike R ((takeLine echo raw).run start' before) := by
    intro raw start start' before hline hstart
    apply alike_bind (alike_echoLine hstart echo _ before)
    intro _ here here' after bytes hecho hhere
    obtain rfl := machine_echoLine hecho
    apply alike_bind
    · apply alike_interpretLine hhere
      intro tokens htokens token there there' left htoken hthere
      have hevaluates : Evaluates echo input m o token there left :=
        ⟨raw, here, before, after, bytes, tokens, hline, hecho, htokens, htoken⟩
      exact h token there there' left hevaluates hthere
    · intro flow there there' left _ _ hthere
      apply alike_bind (alike_delivered hthere _ _)
      intro _ last last' o' _ _ hlast
      exact alike_pure hlast flow o'
  rw [run_eq]
  apply alike_bind (alike_untilBye hR hlines)
  intro flow here here' left _ _ hhere
  exact alike_finish hhere input.ending flow left

end Session

end ColonForth
