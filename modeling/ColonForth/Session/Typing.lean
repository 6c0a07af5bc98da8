import ColonForth.Screen.Prompt
import ColonForth.Session.Run

/-! A session at a terminal: a line editor shows prompts and answers each of them with a signal. -/
namespace ColonForth

inductive Signal where
  | typed (line : String)
  | ctrlC
  | ctrlD
  deriving DecidableEq

/-- The answers of the line editor in turn, and why there is none after them. -/
structure Terminal where
  signals : List Signal
  failure : String

namespace Session

def answer : Signal → Action (Option SessionEnd)
  | .typed line => do
    let flow ← interpretLine line
    Action.flush
    match flow with
    | .bye => pure (some .bye)
    | .proceed => pure none
  | .ctrlC | .ctrlD => pure (some .endOfInput)

/-- Answers signals until one of them ends the session. The next one cannot be read if none does. -/
def interact (failure : String) : List Signal → Action SessionEnd
  | [] => Action.fail (.io failure)
  | signal :: signals => do
    let ended ← answer signal
    match ended with
    | some ending => pure ending
    | none => interact failure signals

def prompts : List Signal → Machine → Outlet → List Prompt
  | [], m, _ => [⟨m.stack.size⟩]
  | signal :: signals, m, o =>
    let done := (answer signal).run m o
    ⟨m.stack.size⟩ ::
      match done.result with
      | .ok none => prompts signals done.machine done.outlet
      | _ => []

end Session

end ColonForth
