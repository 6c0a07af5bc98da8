import ColonForth.Session.Input
import ColonForth.Session.Line

/-! A session interprets the lines of its input until `bye` or the end of the input. -/
namespace ColonForth

inductive SessionEnd where
  | endOfInput
  | bye
  deriving DecidableEq

/-- `bye` names the exit status of the program; the end of the input leaves it open. -/
def SessionEnd.exitStatus : SessionEnd → Option Nat
  | .bye => some 0
  | .endOfInput => none

namespace Session

/-- Moves the cursor of a terminal from the line below back to the end of a typed line. -/
def cursorReturn (length : Nat) : String :=
  "\x1b[1A\x1b[" ++ length.repr ++ "C"

def echoLine (echo : Bool) (line : String) : Action Unit :=
  if echo then Action.say (cursorReturn line.length) else pure ()

def takeLine (echo : Bool) (raw : List UInt8) : Action Flow := do
  let line := Text.Utf8.decodeLossy raw
  echoLine echo line
  let flow ← interpretLine line
  Action.flush
  pure flow

/-- Reads lines into one buffer, which every turn clears, and takes them. -/
def loop (echo : Bool) (r : Reader) : Action SessionEnd :=
  match hread : r.clear.readLine with
  | (.error reason, _) => Action.fail (.io reason)
  | (.ok count, next) =>
    if hcount : count = 0 then do
      Action.flush
      pure .endOfInput
    else do
      have : next.input.bytes.length < r.input.bytes.length :=
        Reader.length_lt_of_readLine hread hcount
      let flow ← takeLine echo next.buffer
      match flow with
      | .bye => pure .bye
      | .proceed => loop echo next
termination_by r.input.bytes.length

def turn (echo : Bool) (raw : List UInt8) : Action (Option SessionEnd) :=
  if raw.isEmpty then do
    Action.flush
    pure (some .endOfInput)
  else do
    let flow ← takeLine echo raw
    match flow with
    | .bye => pure (some .bye)
    | .proceed => pure none

def run (echo : Bool) (input : Input) : Action SessionEnd :=
  loop echo ⟨[], input⟩

end Session

end ColonForth
