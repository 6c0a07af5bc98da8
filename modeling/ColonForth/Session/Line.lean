import ColonForth.Session.Action

/-! The interpretation of one line: it is folded into tokens, these are evaluated, a report ends it.
-/
namespace ColonForth

/-- Evaluates one token and prints its texts. The machine has changed even if they cannot be
written. -/
def evalToken (token : String) : Action Flow where
  run m o :=
    let effect := m.evalWord token
    Action.delivered effect.machine (o.putAll (effect.printed.map Text.Utf8.encode)) effect.result

@[simp] theorem run_evalToken_endless (token : String) (m : Machine) :
    (evalToken token).run m .endless = ⟨(m.evalWord token).machine, .endless,
      Text.Utf8.encode (m.evalWord token).text, (m.evalWord token).result⟩ := by
  simp [evalToken, Effect.text, Action.delivered, Text.Utf8.encode_join]

@[simp] theorem run_evalToken_limited (token : String) (m : Machine) (room : Nat)
    (reason : String) :
    (evalToken token).run m (.limited room reason) =
      Action.delivered (m.evalWord token).machine
        ((Outlet.limited room reason).put (Text.Utf8.encode (m.evalWord token).text))
        (m.evalWord token).result := by
  simp [evalToken, Effect.text, Text.Utf8.encode_join]

def evalTokens (tokens : List String) : Action Flow :=
  Action.untilBye evalToken tokens

def sayLine (text : String) : Action Flow := do
  Action.say (text ++ "\n")
  pure .proceed

/-- The end of a line whose tokens came to `result`. The report says ` ok` or what went wrong, and
there is none after `bye`. -/
def report (result : Except Error Flow) : Action Flow :=
  match result with
  | .ok .bye => pure .bye
  | .ok .proceed => sayLine " ok"
  | .error e => if e.isRecoverable then sayLine e.message else Action.fail e

/-- Evaluates a line. A line with a malformed definition is dropped and reported by an empty
line. -/
def interpretLine (line : String) : Action Flow :=
  match foldClause (Text.words line) with
  | .error _ => sayLine ""
  | .ok tokens => do
    let result ← (evalTokens tokens).attempt
    report result

theorem interpretLine_congr {line line' : String} (h : Text.words line = Text.words line') :
    interpretLine line = interpretLine line' := by
  rw [interpretLine, interpretLine, h]

end ColonForth
