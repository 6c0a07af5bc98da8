import ColonForth.Program.Log
import ColonForth.Session.Typing
import ColonForth.Text.Quoted

/-! What the log says of a session. Whatever ends an action ends its records. -/
namespace ColonForth

namespace Builtin

def label : Builtin → String
  | .bye => "Bye"
  | .print => "Print"
  | .printStack => "PrintStack"
  | .add => "Add"

end Builtin

namespace Meaning

def label : Meaning → String
  | .builtin b => "Builtin(" ++ b.label ++ ")"
  | .entry body => "DictEntry(" ++ Text.quoted body ++ ")"
  | .definition => "Definition"
  | .literal n => "Literal(" ++ Numeral.decimal n ++ ")"
  | .unknown => "Unknown"

end Meaning

namespace Journal
open Log

def program (level : Level) (message : String) : Record :=
  ⟨level, "dictforth", message⟩

def defined (d : Definition) : Record :=
  ⟨.debug, "dictforth::dictionary", "define " ++ Text.quoted d.name ++ " -> " ++ Text.quoted d.body⟩

def cut (text : String) : Record :=
  ⟨.trace, "dictforth::tokenizer", "tokens: " ++ Text.quotedList (Text.words text)⟩

def rejected (tokens : List String) : Record :=
  ⟨.debug, "dictforth::parser",
    "rejecting line with " ++ (tokens.count opener).repr ++ " ':' and " ++
      (tokens.count closer).repr ++ " ';': " ++ Text.joinWords tokens⟩

def session (message : String) : Record :=
  ⟨.debug, "dictforth::session", message⟩

def resolved (word : String) (depth : Nat) (found : Meaning) : Record :=
  ⟨.trace, "dictforth::runtime",
    Text.quoted word ++ " at depth " ++ depth.repr ++ " -> " ++ found.label⟩

/-- A clause is cut into words before it can define a name. -/
def ofDefinition (clause : String) : List Record :=
  cut clause ::
    match Definition.ofClause clause with
    | .ok d => [defined d]
    | .error _ => []

/-- The records of evaluating a word when `depth` entries have been followed and `budget` more
may be. -/
def ofWord (m : Machine) (budget depth : Nat) (word : String) : List Record :=
  resolved word depth (m.meaning word) ::
    match m.meaning word with
    | .entry body =>
      match budget with
      | 0 => []
      | budget + 1 => ofWord m budget (depth + 1) body
    | .definition => ofDefinition word
    | _ => []

/-- The records of the items that `act` takes until one of them says `bye` or fails. -/
def alongside {α : Type} (act : α → Action Flow) (records : α → Machine → Outlet → List Record) :
    List α → Machine → Outlet → List Record
  | [], _, _ => []
  | item :: items, m, o =>
    let done := (act item).run m o
    records item m o ++
      match done.result with
      | .ok .proceed => alongside act records items done.machine done.outlet
      | _ => []

def ofTokens (tokens : List String) (m : Machine) (o : Outlet) : List Record :=
  alongside evalToken (fun token m _ => ofWord m m.maxDepth 0 token) tokens m o ++
    match ((evalTokens tokens).run m o).result with
    | .error e => if e.isRecoverable then [session ("line failed: " ++ e.message)] else []
    | .ok _ => []

def ofLine (line : String) (m : Machine) (o : Outlet) : List Record :=
  cut line ::
    match foldClause (Text.words line) with
    | .error e => [rejected (Text.words line), session ("line discarded: " ++ e.message)]
    | .ok tokens => ofTokens tokens m o

/-- Nothing is said of a line whose echo cannot be written. -/
def ofRawLine (echo : Bool) (raw : List UInt8) (m : Machine) (o : Outlet) : List Record :=
  let line := Text.Utf8.decodeLossy raw
  let done := (Session.echoLine echo line).run m o
  match done.result with
  | .ok _ => ofLine line done.machine done.outlet
  | .error _ => []

def endOfInput : Record :=
  session "end of input"

def ofTurn (echo : Bool) (raw : List UInt8) (m : Machine) (o : Outlet) : List Record :=
  if raw.isEmpty then [endOfInput] else ofRawLine echo raw m o

def ofSession (echo : Bool) (input : Input) (m : Machine) (o : Outlet) : List Record :=
  alongside (Session.takeLine echo) (ofRawLine echo) input.lines m o ++
    match ((Action.untilBye (Session.takeLine echo) input.lines).run m o).result, input.ending with
    | .ok .proceed, .endOfInput => [endOfInput]
    | _, _ => []

/-- Nothing is said of a session that is given up. -/
def ofSignal (signal : Signal) (m : Machine) (o : Outlet) : List Record :=
  match signal with
  | .typed line => ofLine line m o
  | .ctrlC | .ctrlD => []

def ofSignals : List Signal → Machine → Outlet → List Record
  | [], _, _ => []
  | signal :: signals, m, o =>
    let done := (Session.answer signal).run m o
    ofSignal signal m o ++
      match done.result with
      | .ok none => ofSignals signals done.machine done.outlet
      | _ => []

end Journal

end ColonForth
