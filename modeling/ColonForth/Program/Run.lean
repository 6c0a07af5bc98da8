import ColonForth.Program.CommandLine
import ColonForth.Program.History
import ColonForth.Program.Journal

/-! A run of the program: what it makes of its command line and of the things around it. -/
namespace ColonForth

structure Surroundings where
  input : Input
  outlet : Outlet
  history : HistoryFile
  /-- The log setting, empty when there is none. -/
  logSetting : String

/-- What the program leaves behind. On standard error stand the lines of `log` and `notices`, the
lines that show no log record. -/
structure Report where
  status : Nat
  written : List UInt8
  log : List Log.Record
  notices : List String
  history : HistoryFile
  prompts : List Prompt

def Terminal.absent : Terminal :=
  ⟨[], "No such device or address (os error 6)"⟩

namespace Program

def versionText : String :=
  "dictforth 0.1.0\n"

def usageText : String :=
  "Usage: dictforth [--max-depth <N>] [stdin [--no-echo] | repl [--history-size <N>]]\n"

def historyNotice : String :=
  "NOTE: Failed to load history. Persistence is now disabled."

def stopText : CommandLine.Stop → String
  | .help | .version => ""
  | .unknownArgument => "error: unexpected argument"
  | .unknownSubcommand => "error: unrecognized subcommand"
  | .missingValue => "error: a value is required"
  | .malformedValue => "error: invalid value"
  | .repeatedOption => "error: an option cannot be used multiple times"
  | .unexpectedValue => "error: unexpected value"

def stopped (stop : CommandLine.Stop) (s : Surroundings) : Report :=
  match stop with
  | .help => ⟨0, Text.Utf8.encode usageText, [], [], s.history, []⟩
  | .version => ⟨0, Text.Utf8.encode versionText, [], [], s.history, []⟩
  | stop => ⟨2, [], [], [stopText stop], s.history, []⟩

def lastNotice {α : Type} : Except Error α → List String
  | .ok _ => []
  | .error e => [e.message]

def modeOf (request : Request) : Mode :=
  request.mode.getD (.batch true)

/-- An interactive run opens the history before anything is typed. What is typed is added to it by
the line editor, which is not part of the program. -/
def serve (t : Terminal) (request : Request) (s : Surroundings) : Report :=
  let m := Machine.fresh request.maxDepth
  match modeOf request with
  | .batch echo =>
    let done := (Session.run echo s.input).run m s.outlet
    ⟨0, done.written, [], lastNotice done.result, s.history, []⟩
  | .interactive historySize =>
    let done := (Session.interact t.failure t.signals).run m s.outlet
    let prompts := Session.prompts t.signals m s.outlet
    match s.history.opened? historySize with
    | some history => ⟨0, done.written, [], lastNotice done.result, history, prompts⟩
    | none => ⟨0, done.written, [], historyNotice :: lastNotice done.result, s.history, prompts⟩

/-- The records before the first line is read. The seeded word is defined in between. -/
def openingRecords (request : Request) : List Log.Record :=
  let mode :=
    match modeOf request with
    | .batch echo =>
      [Journal.program .info "STDIN MODE",
        Journal.program .debug ("echo: " ++ (if echo then "true" else "false"))]
    | .interactive historySize =>
      [Journal.program .info "REPL MODE",
        Journal.program .debug ("history size: " ++ historySize.repr)]
  Journal.program .debug ("max depth: " ++ request.maxDepth.repr) ::
    Journal.defined ⟨"test", "+"⟩ :: mode

def records (t : Terminal) (request : Request) (s : Surroundings) : List Log.Record :=
  openingRecords request ++
    match modeOf request with
    | .batch echo => Journal.ofSession echo s.input (.fresh request.maxDepth) s.outlet
    | .interactive _ => Journal.ofSignals t.signals (.fresh request.maxDepth) s.outlet

def admitted (t : Terminal) (arguments : List String) (s : Surroundings) : List Log.Record :=
  let filter := Log.Filter.ofText s.logSetting
  match filter, CommandLine.request arguments with
  | [], _ => []
  | _, .error _ => []
  | _, .ok request => (records t request s).filter filter.admits

/-- A run without its log. -/
def outcome (t : Terminal) (arguments : List String) (s : Surroundings) : Report :=
  match CommandLine.request arguments with
  | .error stop => stopped stop s
  | .ok request => serve t request s

/-- Runs the program. Settings of the log that cannot be read are noted first, and what ends the
run is noted after all records. -/
def runAt (t : Terminal) (arguments : List String) (s : Surroundings) : Report :=
  let report := outcome t arguments s
  let (log, notices) := Log.readBack (admitted t arguments s) report.notices
  { report with log := log, notices := Log.Filter.warnings s.logSetting ++ notices }

def run (arguments : List String) (s : Surroundings) : Report :=
  runAt .absent arguments s

end Program

end ColonForth
