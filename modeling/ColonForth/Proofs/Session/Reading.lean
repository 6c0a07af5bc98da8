import ColonForth.Session.Run

/-! The reading loop of a session takes the lines of the input, one after the other. -/
namespace ColonForth.Session

/-- What follows the last line that was taken. -/
def finish (ending : Ending) (flow : Flow) : Action SessionEnd :=
  match flow, ending with
  | .bye, _ => pure .bye
  | .proceed, .endOfInput => do
    Action.flush
    pure .endOfInput
  | .proceed, .broken reason => Action.fail (.io reason)

variable {echo : Bool} {r next : Reader}

theorem loop_of_error {reason : String} (h : r.clear.readLine = (.error reason, next)) :
    loop echo r = Action.fail (.io reason) := by
  rw [loop]
  split
  · next heq =>
    cases h.symm.trans heq
    rfl
  · next heq => cases h.symm.trans heq

theorem loop_of_ok {count : Nat} (h : r.clear.readLine = (.ok count, next)) :
    loop echo r =
      if count = 0 then finish .endOfInput .proceed
      else takeLine echo next.buffer >>= fun flow =>
        match flow with
        | .bye => pure .bye
        | .proceed => loop echo next := by
  rw [loop]
  split
  · next heq => cases h.symm.trans heq
  · next heq =>
    cases h.symm.trans heq
    rfl

/-- The loop is made of turns. -/
theorem loop_eq_turn (echo : Bool) (r : Reader) :
    loop echo r =
      match r.clear.readLine with
      | (.error reason, _) => Action.fail (.io reason)
      | (.ok _, next) => turn echo next.buffer >>= fun ended =>
        match ended with
        | some ending => pure ending
        | none => loop echo next := by
  cases hread : r.clear.readLine with
  | mk result next =>
    cases result with
    | error reason => exact loop_of_error hread
    | ok count =>
      have hlength := Reader.length_buffer_of_readLine hread
      rw [loop_of_ok hread, ← hlength]
      cases hbuffer : next.buffer with
      | nil => simp [turn, finish, hbuffer]
      | cons byte bytes =>
        simp only [turn, hbuffer, List.length_cons, Nat.succ_ne_zero, if_false,
          List.isEmpty_cons, Bool.false_eq_true, bind_assoc]
        congr 1
        funext flow
        cases flow <;> simp

/-- The step: a line is taken, whatever the buffer held before. -/
theorem loop_line (echo : Bool) (buffer : List UInt8) {body : List UInt8}
    (h : Text.newlineByte ∉ body) (rest : List UInt8) (ending : Ending) :
    loop echo ⟨buffer, ⟨body ++ Text.newlineByte :: rest, ending⟩⟩ =
      takeLine echo (body ++ [Text.newlineByte]) >>= fun flow =>
        match flow with
        | .bye => pure .bye
        | .proceed => loop echo ⟨body ++ [Text.newlineByte], ⟨rest, ending⟩⟩ := by
  have hread : (Reader.clear ⟨buffer, ⟨body ++ Text.newlineByte :: rest, ending⟩⟩).readLine =
      (.ok (body.length + 1), ⟨body ++ [Text.newlineByte], ⟨rest, ending⟩⟩) :=
    Reader.readLine_line [] h rest ending
  rw [loop_of_ok hread, if_neg (Nat.succ_ne_zero body.length)]

theorem loop_nil (echo : Bool) (buffer : List UInt8) :
    loop echo ⟨buffer, ⟨[], .endOfInput⟩⟩ = finish .endOfInput .proceed := by
  have hread : (Reader.clear ⟨buffer, ⟨[], .endOfInput⟩⟩).readLine =
      (.ok 0, ⟨[], ⟨[], .endOfInput⟩⟩) := rfl
  rw [loop_of_ok hread, if_pos rfl]

/-- What stands behind the last newline is a line if the input ends, and lost if it breaks off. -/
theorem loop_tail (echo : Bool) (buffer : List UInt8) {bytes : List UInt8}
    (h : Text.newlineByte ∉ bytes) (ending : Ending) :
    loop echo ⟨buffer, ⟨bytes, ending⟩⟩ =
      Action.untilBye (takeLine echo) (Input.lines ⟨bytes, ending⟩) >>= finish ending := by
  have hread : (Reader.clear ⟨buffer, ⟨bytes, ending⟩⟩).readLine = _ :=
    Reader.readLine_tail [] h ending
  have hcut := Text.cutLines_of_newline_notMem h
  cases ending with
  | broken reason =>
    rw [loop_of_error hread]
    simp [Input.lines, hcut, Action.untilBye, finish]
  | endOfInput =>
    cases bytes with
    | nil => simp [loop_nil, Input.lines, Action.untilBye]
    | cons byte bytes =>
      rw [loop_of_ok hread]
      simp only [List.length_cons, Nat.succ_ne_zero, Input.lines, hcut, List.isEmpty_cons,
        Bool.false_eq_true, if_false, List.nil_append, Action.untilBye, bind_assoc, loop_nil]
      congr 1
      funext flow
      cases flow <;> simp [finish]

/-- The loop takes the lines one after the other and ends as the last of them and the input say. -/
theorem loop_eq (echo : Bool) (buffer bytes : List UInt8) (ending : Ending) :
    loop echo ⟨buffer, ⟨bytes, ending⟩⟩ =
      Action.untilBye (takeLine echo) (Input.lines ⟨bytes, ending⟩) >>= finish ending := by
  induction bytes using Text.lines_induction generalizing buffer with
  | hlast tail htail => exact loop_tail echo buffer htail ending
  | hline body rest hbody ih =>
    rw [loop_line echo buffer hbody, Input.lines_line_append hbody, Action.untilBye, bind_assoc]
    congr 1
    funext flow
    cases flow with
    | bye => simp [finish]
    | proceed => simp [ih]

theorem run_eq (echo : Bool) (input : Input) :
    run echo input = Action.untilBye (takeLine echo) input.lines >>= finish input.ending :=
  loop_eq echo [] input.bytes input.ending

theorem run_line (echo : Bool) {body : List UInt8} (h : Text.newlineByte ∉ body)
    (rest : List UInt8) (ending : Ending) :
    run echo ⟨body ++ Text.newlineByte :: rest, ending⟩ =
      takeLine echo (body ++ [Text.newlineByte]) >>= fun flow =>
        match flow with
        | .bye => pure .bye
        | .proceed => run echo ⟨rest, ending⟩ := by
  have hrest : loop echo ⟨body ++ [Text.newlineByte], ⟨rest, ending⟩⟩ =
      run echo ⟨rest, ending⟩ := by
    rw [loop_eq, run_eq]
  rw [run, loop_line echo [] h, hrest]

end ColonForth.Session
