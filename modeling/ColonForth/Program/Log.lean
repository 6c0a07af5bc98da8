import ColonForth.Text.Plain
import ColonForth.Text.Words

/-! Log records, the lines that show them and the filter that says which of them are shown. A filter
is written as settings between commas: `level`, or `target=level` for targets that begin with
`target`. -/
namespace ColonForth.Log

inductive Level where
  | error
  | warn
  | info
  | debug
  | trace
  deriving DecidableEq

namespace Level

def all : List Level :=
  [.error, .warn, .info, .debug, .trace]

def name : Level → String
  | .error => "ERROR"
  | .warn => "WARN"
  | .info => "INFO"
  | .debug => "DEBUG"
  | .trace => "TRACE"

def rank : Level → Nat
  | .error => 1
  | .warn => 2
  | .info => 3
  | .debug => 4
  | .trace => 5

end Level

structure Record where
  level : Level
  target : String
  message : String
  deriving DecidableEq

namespace Record

/-- The line of a record without its time. Names of levels stand in a column of five. -/
def line (r : Record) : String :=
  "[" ++ String.ofList (r.level.name.toList.rightpad 5 ' ') ++ " " ++ r.target ++ "] " ++ r.message

def shown (r : Record) : Record :=
  { r with message := Text.plain r.message }

/-- A control string in the message swallows the end of the line. -/
def endsLine (r : Record) : Bool :=
  Text.endsPlain r.message

def written (r : Record) : String :=
  r.shown.line ++ (if r.endsLine then "\n" else "")

end Record

/-- What can be read from the lines of the records, with `notes` on the lines behind them: the
records that the lines show and the notes that have kept a line of their own. A line without an end
takes up the next one. -/
def readBack : List Record → List String → List Record × List String
  | [], notes => ([], notes)
  | r :: records, notes =>
    let (later, left) := readBack records notes
    let joined (text : String) : Record := { r with message := r.shown.message ++ text }
    if r.endsLine then (r.shown :: later, left)
    else
      match later, left with
      | next :: later, left => (joined next.line :: later, left)
      | [], note :: left => ([joined note], left)
      | [], [] => ([r.shown], [])

/-- The most talkative level that is shown, or nothing at all. -/
abbrev Limit := Option Level

def Limit.ofText? (text : String) : Option Limit :=
  let upper := text.map Char.toUpper
  if upper = "OFF" then some none
  else (Level.all.find? (·.name == upper)).map some

def Limit.admits (limit : Limit) (level : Level) : Bool :=
  match limit with
  | none => false
  | some last => level.rank ≤ last.rank

/-- A setting without a target holds for every record. -/
structure Setting where
  target : Option String
  limit : Limit
  deriving DecidableEq

abbrev Filter := List Setting

namespace Filter

/-- A setting takes the place of an earlier one for the same target. -/
def add (f : Filter) (s : Setting) : Filter :=
  if f.any (·.target == s.target) then f.map fun t => if t.target == s.target then s else t
  else f ++ [s]

def trim (text : String) : String :=
  let strip (cs : List Char) := (cs.dropWhile Text.isBlank).reverse
  String.ofList (strip (strip text.toList))

def fields (separator : Char) (text : String) : List String :=
  (text.toList.splitOn separator).map String.ofList

/-- Reads one setting. A target alone shows everything. What cannot be read is the error. -/
def setting? (text : String) : Except String Setting :=
  match fields '=' text with
  | [word] =>
    match Limit.ofText? word with
    | some limit => .ok ⟨none, limit⟩
    | none => .ok ⟨some word, some .trace⟩
  | [target, level] =>
    if trim level = "" then .ok ⟨some target, some .trace⟩
    else
      match Limit.ofText? (trim level) with
      | some limit => .ok ⟨some target, limit⟩
      | none => .error (trim level)
  | _ => .error text

def pieces (text : String) : List String :=
  ((fields ',' text).map trim).filter (· ≠ "")

def addPiece (f : Filter) (piece : String) : Filter :=
  match setting? piece with
  | .ok s => f.add s
  | .error _ => f

def ofText (text : String) : Filter :=
  (pieces text).foldl addPiece []

def warnings (text : String) : List String :=
  (pieces text).filterMap fun piece =>
    match setting? piece with
    | .ok _ => none
    | .error part => some ("warning: invalid logging spec '" ++ part ++ "', ignoring it")

def length (s : Setting) : Nat :=
  (s.target.getD "").length

def holdsFor (s : Setting) (target : String) : Bool :=
  (s.target.getD "").toList.isPrefixOf target.toList

/-- The setting that decides on a target: the one with the longest name, and of two the later. -/
def governing? (target : String) : Filter → Option Setting
  | [] => none
  | s :: rest =>
    match governing? target rest with
    | none => if holdsFor s target then some s else none
    | some t => if holdsFor s target ∧ length t < length s then some s else some t

def admits (f : Filter) (r : Record) : Bool :=
  match governing? r.target f with
  | none => false
  | some s => s.limit.admits r.level

end Filter

end ColonForth.Log
