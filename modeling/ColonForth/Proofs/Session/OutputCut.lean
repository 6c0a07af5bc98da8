import ColonForth.Proofs.Session.Invariant
import ColonForth.Proofs.Session.Reading
import ColonForth.Proofs.Session.Severed

/-! Sessions whose output fails. -/
namespace ColonForth
open ColonForth.Action

namespace Session

/-- Where the room ends in a line, and the machine that is left then. A machine that cannot write
the echo has not begun with the line. One that cannot write the text of a token has evaluated the
token. One that cannot write the report has evaluated all tokens before that, if the line was not
rejected. -/
inductive LineCut (echo : Bool) (line : String) (m : Machine) (room : Nat) : Machine → Prop
  | echo (h : room < (echoLine echo line).size m) : LineCut echo line m room m
  | token (taken : List String) (token : String) (rest : List String)
      (htokens : foldClause (Text.words line) = .ok (taken ++ token :: rest))
      (hresult : ((evalTokens taken).free m).result = .ok .proceed)
      (hfrom : (echoLine echo line).size m + (evalTokens taken).size m ≤ room)
      (hto : room < (echoLine echo line).size m + (evalTokens (taken ++ [token])).size m) :
      LineCut echo line m room ((evalTokens (taken ++ [token])).free m).machine
  | report (tokens : List String) (htokens : foldClause (Text.words line) = .ok tokens)
      (hfrom : (echoLine echo line).size m + (evalTokens tokens).size m ≤ room) :
      LineCut echo line m room ((evalTokens tokens).free m).machine
  | rejected (e : Error) (htokens : foldClause (Text.words line) = .error e)
      (hfrom : (echoLine echo line).size m ≤ room) : LineCut echo line m room m

/-- Where the room ends in a session: in a line that the session comes to without a limit, with the
room that the lines before it leave. -/
def Cut (echo : Bool) (input : Input) : Machine → Nat → Machine → Prop :=
  CutAmong (takeLine echo) (fun raw => LineCut echo (Text.Utf8.decodeLossy raw)) input.lines

end Session

/-! ### The parts of a line -/

theorem severed_flush : flush.Severed fun _ _ _ => False :=
  severed_of_silent (fun _ => rfl) fun _ _ _ => rfl

theorem severed_sayLine (text : String) : (sayLine text).Severed fun m _ left => left = m :=
  (severed_say _).bind_silent fun _ => severed_pure Flow.proceed

theorem severed_evalToken (token : String) :
    (evalToken token).Severed fun m _ left => left = (m.evalWord token).machine :=
  severed_of_put (run_evalToken_endless token) (run_evalToken_limited token)

theorem severed_report (result : Except Error Flow) :
    (report result).Severed fun m _ left => left = m := by
  unfold report
  split
  · exact (severed_pure Flow.bye).of_silent _
  · exact severed_sayLine _
  · split
    · exact severed_sayLine _
    · exact (severed_fail _).of_silent _

theorem severed_echoLine (echo : Bool) (line : String) :
    (Session.echoLine echo line).Severed fun m _ left => left = m := by
  unfold Session.echoLine
  split
  · exact severed_say _
  · exact (severed_pure ()).of_silent _

theorem free_echoLine (echo : Bool) (line : String) (m : Machine) :
    ((Session.echoLine echo line).free m).machine = m ∧
      ((Session.echoLine echo line).free m).result = .ok () := by
  unfold Session.echoLine
  split <;> exact ⟨rfl, rfl⟩

theorem machine_evalTokens_concat {taken : List String} {m : Machine}
    (h : ((evalTokens taken).free m).result = .ok .proceed) (token : String) :
    ((evalTokens (taken ++ [token])).free m).machine =
      (((evalTokens taken).free m).machine.evalWord token).machine := by
  have hendless := (severed_untilBye severed_evalToken taken).endless m
  rw [evalTokens, untilBye_concat, free_bind_of_ok hendless h]
  exact congrArg Outcome.machine (run_evalToken_endless token _)

/-- The room ends in the text of a token, and the token has been evaluated by then. -/
theorem cutAmong_evalToken_iff (tokens : List String) (m : Machine) (room : Nat) (left : Machine) :
    CutAmong evalToken (fun token m _ left => left = (m.evalWord token).machine) tokens m room
        left ↔
      ∃ taken token rest, tokens = taken ++ token :: rest ∧
        ((evalTokens taken).free m).result = .ok .proceed ∧ (evalTokens taken).size m ≤ room ∧
        room < (evalTokens (taken ++ [token])).size m ∧
        left = ((evalTokens (taken ++ [token])).free m).machine := by
  constructor
  · rintro ⟨taken, token, rest, htokens, hresult, hfrom, hto, hleft⟩
    refine ⟨taken, token, rest, htokens, hresult, hfrom, hto, ?_⟩
    rw [machine_evalTokens_concat hresult]
    exact hleft
  · rintro ⟨taken, token, rest, htokens, hresult, hfrom, hto, hleft⟩
    rw [machine_evalTokens_concat hresult] at hleft
    exact ⟨taken, token, rest, htokens, hresult, hfrom, hto, hleft⟩

/-! ### Lines and sessions -/

theorem severed_interpretLine_rejected {line : String} {e : Error}
    (htokens : foldClause (Text.words line) = .error e) :
    (interpretLine line).Severed fun m _ left => left = m := by
  have hline : interpretLine line = sayLine "" := by rw [interpretLine, htokens]
  rw [hline]
  exact severed_sayLine ""

theorem severed_interpretLine {line : String} {tokens : List String}
    (htokens : foldClause (Text.words line) = .ok tokens) :
    (interpretLine line).Severed fun m room left =>
      CutAmong evalToken (fun token m _ left => left = (m.evalWord token).machine) tokens m room
          left ∨
        ((evalTokens tokens).size m ≤ room ∧ left = ((evalTokens tokens).free m).machine) := by
  have hsevered := severed_untilBye severed_evalToken tokens
  rw [interpretLine_of_tokens htokens]
  apply (hsevered.attempt_bind severed_report fun _ => rfl).congr
  intro m room left _
  apply or_congr _ Iff.rfl
  exact ⟨fun hcut => ⟨hcut.lt_size severed_evalToken, hcut⟩, fun hcut => hcut.2⟩

theorem severed_takeLine_of {line : String} {cut : Machine → Nat → Machine → Prop}
    (h : (interpretLine line).Severed cut) {echo : Bool} {raw : List UInt8}
    (hraw : Text.Utf8.decodeLossy raw = line) :
    (Session.takeLine echo raw).Severed fun m room left =>
      (room < (Session.echoLine echo line).size m ∧ left = m) ∨
        ((Session.echoLine echo line).size m ≤ room ∧
          cut m (room - (Session.echoLine echo line).size m) left) := by
  have htail : ∀ flow : Flow, (flush >>= fun _ => pure flow).Severed fun _ _ _ => False :=
    fun flow => severed_flush.bind_silent fun _ => severed_pure flow
  unfold Session.takeLine
  rw [hraw]
  apply ((severed_echoLine echo line).bind fun _ => h.bind_silent htail).congr
  intro m room left _
  obtain ⟨hmachine, hresult⟩ := free_echoLine echo line m
  rw [hmachine]
  apply or_congr Iff.rfl
  exact ⟨fun hcut => ⟨(), hresult, hcut⟩, fun ⟨_, _, hcut⟩ => hcut⟩

theorem severed_takeLine (echo : Bool) (raw : List UInt8) :
    (Session.takeLine echo raw).Severed (Session.LineCut echo (Text.Utf8.decodeLossy raw)) := by
  cases htokens : foldClause (Text.words (Text.Utf8.decodeLossy raw)) with
  | error e =>
    apply (severed_takeLine_of (severed_interpretLine_rejected htokens) rfl).congr
    intro m room left _
    constructor
    · intro hcut
      cases hcut with
      | echo h => exact Or.inl ⟨h, rfl⟩
      | rejected e he hfrom => exact Or.inr ⟨hfrom, rfl⟩
      | token taken token rest hok | report tokens hok =>
        rw [htokens] at hok
        cases hok
    · rintro (⟨h, rfl⟩ | ⟨hfrom, rfl⟩)
      · exact .echo h
      · exact .rejected e htokens hfrom
  | ok tokens =>
    apply (severed_takeLine_of (severed_interpretLine htokens) rfl).congr
    intro m room left _
    rw [cutAmong_evalToken_iff]
    constructor
    · intro hcut
      cases hcut with
      | echo h => exact Or.inl ⟨h, rfl⟩
      | rejected e he hfrom =>
        rw [htokens] at he
        cases he
      | token taken token rest hok hresult hfrom hto =>
        rw [htokens] at hok
        obtain rfl := Except.ok.inj hok
        exact Or.inr ⟨by omega, Or.inl ⟨taken, token, rest, rfl, hresult, by omega, by omega, rfl⟩⟩
      | report tokens' hok hfrom =>
        rw [htokens] at hok
        obtain rfl := Except.ok.inj hok
        exact Or.inr ⟨by omega, Or.inr ⟨by omega, rfl⟩⟩
    · rintro (⟨h, rfl⟩ |
        ⟨hecho, ⟨taken, token, rest, rfl, hresult, hfrom, hto, rfl⟩ | ⟨hfrom, rfl⟩⟩)
      · exact .echo h
      · exact .token taken token rest htokens hresult (by omega) (by omega)
      · exact .report tokens htokens (by omega)

theorem severed_finish (ending : Ending) (flow : Flow) :
    (Session.finish ending flow).Severed fun _ _ _ => False := by
  unfold Session.finish
  split
  · exact severed_pure SessionEnd.bye
  · exact severed_flush.bind_silent fun _ => severed_pure SessionEnd.endOfInput
  · exact severed_fail _

theorem severed_run (echo : Bool) (input : Input) :
    (Session.run echo input).Severed (Session.Cut echo input) := by
  rw [Session.run_eq]
  exact (severed_untilBye (severed_takeLine echo) input.lines).bind_silent
    (severed_finish input.ending)

/-- A session on an outlet with little room writes what fits of the output without a limit. When
all of it fits the session ends as it does without a limit. Else it ends with the failure of the
outlet, and the machine is the one that the session without a limit has at the write that did not
fit: before a line for its echo, after a token for the text of the token, and after all tokens for
the report. -/
theorem run_limited (echo : Bool) (input : Input) (m : Machine) (room : Nat) (reason : String) :
    let free := (Session.run echo input).run m .endless
    let limited := (Session.run echo input).run m (.limited room reason)
    limited.written = free.written.take room ∧
      (free.written.length ≤ room →
        limited.result = free.result ∧ limited.machine = free.machine) ∧
      (room < free.written.length →
        limited.result = .error (.io reason) ∧
          ∀ left, Session.Cut echo input m room left ↔ left = limited.machine) := by
  intro free limited
  have hsevered := severed_run echo input
  by_cases hroom : free.written.length ≤ room
  · have hrun : limited = _ := hsevered.fits m room reason hroom
    refine ⟨?_, fun _ => ?_, fun hlt => absurd hroom (Nat.not_le_of_lt hlt)⟩
    · rw [hrun, List.take_of_length_le hroom]
      rfl
    · rw [hrun]
      exact ⟨rfl, rfl⟩
  · obtain ⟨left, hrun, hleft⟩ := hsevered.severed m room reason (Nat.lt_of_not_le hroom)
    have hlimited : limited = _ := hrun
    refine ⟨?_, fun hle => absurd hle hroom, fun _ => ?_⟩
    · rw [hlimited]
      rfl
    · rw [hlimited]
      exact ⟨rfl, hleft⟩

/-- Without room for the text of `.` the cell is gone, and the token behind it is not evaluated. -/
theorem run_limited_print :
    let input : Input := ⟨Text.Utf8.encode "1 2 . 3\n", .endOfInput⟩
    let limited := (Session.run false input).run (.fresh 64) (.limited 0 "closed")
    0 < ((Session.run false input).run (.fresh 64) .endless).written.length ∧
      limited.result = .error (.io "closed") ∧ limited.machine.stack.cells = [1] := by
  intro input limited
  have hwritten : 0 < ((Session.run false input).run (.fresh 64) .endless).written.length := by
    rw [Session.run_eq]
    decide
  have hcut : Session.Cut false input (.fresh 64) 0
      ((evalTokens (["1", "2"] ++ ["."])).free (.fresh 64)).machine := by
    refine ⟨[], Text.Utf8.encode "1 2 . 3\n", [], rfl, rfl, Nat.zero_le 0, by decide, ?_⟩
    exact .token ["1", "2"] "." ["3"] rfl rfl (Nat.zero_le 0) (by decide)
  obtain ⟨hresult, hleft⟩ :=
    (run_limited false input (.fresh 64) 0 "closed").2.2 hwritten
  have hmachine : _ = limited.machine := (hleft _).mp hcut
  refine ⟨hwritten, hresult, ?_⟩
  rw [← hmachine]
  rfl

end ColonForth
