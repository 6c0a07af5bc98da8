import ColonForth.Program.Run

/-! The program itself. It takes each line before it reads the next one. -/
namespace ColonForth.Shell

def emit (filter : Log.Filter) (records : List Log.Record) : IO Unit :=
  for r in records do
    if filter.admits r then IO.eprint r.written

/-- The system's own words for the failure of a device. -/
def reason : IO.Error → String
  | .resourceExhausted _ code details | .inappropriateType _ code details
  | .permissionDenied _ code details =>
    details ++ " (os error " ++ code.toNat.repr ++ ")"
  | .hardwareFault code details | .otherError code details =>
    details ++ " (os error " ++ code.toNat.repr ++ ")"
  | e => toString e

/-- The bytes of standard input up to the next newline, without any at the end of the input. -/
partial def readLine (input : IO.FS.Stream) (line : ByteArray) : IO ByteArray := do
  let byte ← input.read 1
  if byte.isEmpty then pure line
  else if byte.data.contains Text.newlineByte then pure (line ++ byte)
  else readLine input (line ++ byte)

/-- A line from the terminal itself, which edits it. -/
def readSignal (input : IO.FS.Stream) (prompt : Prompt) : IO Signal := do
  IO.eprint (prompt.left ++ prompt.right ++ Prompt.indicator)
  let line := Text.Utf8.decodeLossy (← readLine input .empty).toList
  pure (if line.isEmpty then .ctrlD else .typed (String.ofList (line.toList.filter (· != '\n'))))

def finishTurn (done : Outcome (Option SessionEnd)) : IO (Option Machine) := do
  let output ← IO.getStdout
  output.write done.written.toByteArray
  output.flush
  match done.result with
  | .ok none => pure (some done.machine)
  | .ok (some _) => pure none
  | .error e => do
    IO.eprintln e.message
    pure none

/-- The turns of `Session.run`. -/
partial def batch (filter : Log.Filter) (echo : Bool) (m : Machine) : IO Unit := do
  let raw := (← readLine (← IO.getStdin) .empty).toList
  emit filter (Journal.ofTurn echo raw m .endless)
  match ← finishTurn ((Session.turn echo raw).run m .endless) with
  | some next => batch filter echo next
  | none => pure ()

/-- The turns of `Session.interact`. -/
partial def interactive (filter : Log.Filter) (m : Machine) : IO Unit := do
  let signal ← readSignal (← IO.getStdin) ⟨m.stack.size⟩
  emit filter (Journal.ofSignal signal m .endless)
  match ← finishTurn ((Session.answer signal).run m .endless) with
  | some next => interactive filter next
  | none => pure ()

def home : IO String := do
  pure ((← IO.getEnv "HOME").getD "")

def historyPath : IO String := do
  pure ((← home) ++ "/.dictforth_history")

def findHistory : IO HistoryFile := do
  try
    let bytes ← IO.FS.readBinFile (← historyPath)
    pure (.content bytes.toList)
  catch
    | .noFileOrDirectory .. => pure .absent
    | _ => pure .unusable

def keepHistory (file : HistoryFile) : IO Unit := do
  match file with
  | .content bytes => do
    IO.FS.createDirAll (← home)
    IO.FS.writeBinFile (← historyPath) bytes.toByteArray
  | .absent | .unusable => pure ()

/-- Runs the program on what was found, with nothing left to read. -/
def answer (arguments : List String) (s : Surroundings) : IO UInt32 := do
  for warning in Log.Filter.warnings s.logSetting do IO.eprintln warning
  for r in Program.admitted .absent arguments s do IO.eprint r.written
  let report := Program.outcome .absent arguments s
  (← IO.getStdout).write report.written.toByteArray
  for notice in report.notices do IO.eprintln notice
  if report.history != s.history then keepHistory report.history
  pure report.status.toUInt32

def serve (request : Request) (s : Surroundings) : IO UInt32 := do
  let filter := Log.Filter.ofText s.logSetting
  for warning in Log.Filter.warnings s.logSetting do IO.eprintln warning
  emit filter (Program.openingRecords request)
  let m := Machine.fresh request.maxDepth
  try
    match Program.modeOf request with
    | .batch echo => batch filter echo m
    | .interactive size => do
      match s.history.opened? size with
      | some file => keepHistory file
      | none => IO.eprintln Program.historyNotice
      interactive filter m
  catch e => IO.eprintln (Error.io (reason e)).message
  pure 0

end ColonForth.Shell

open ColonForth in
def main (arguments : List String) : IO UInt32 := do
  let setting := (← IO.getEnv "RUST_LOG").getD ""
  let s : Surroundings := ⟨⟨[], .endOfInput⟩, .endless, ← Shell.findHistory, setting⟩
  match CommandLine.request arguments with
  | .error _ => Shell.answer arguments s
  | .ok request =>
    match Program.modeOf request with
    | .batch _ => Shell.serve request s
    | .interactive _ =>
      if ← (← IO.getStdin).isTty then Shell.serve request s else Shell.answer arguments s
