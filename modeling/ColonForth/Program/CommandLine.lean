import ColonForth.Machine.Basic

/-! The command line. A value that stands in a word of its own is looked at only when the next
option begins or the words end. Until then a word that is wrong in itself is the one to be reported.
-/
namespace ColonForth

inductive Mode where
  /-- Lines from standard input. -/
  | batch (echo : Bool)
  /-- Lines typed at a prompt, with a history of `historySize` lines. -/
  | interactive (historySize : Nat)
  deriving DecidableEq

/-- What the program is asked to do. Without a mode it reads standard input with echo. -/
structure Request where
  maxDepth : Nat
  mode : Option Mode
  deriving DecidableEq

namespace CommandLine

inductive Stop where
  | help
  | version
  | unknownArgument
  | unknownSubcommand
  | missingValue
  | malformedValue
  | repeatedOption
  | unexpectedValue
  deriving DecidableEq

inductive Subcommand where
  | batch
  | interactive
  deriving DecidableEq

def Subcommand.ofWord? : String → Option Subcommand
  | "stdin" => some .batch
  | "repl" => some .interactive
  | _ => none

/-- Options with a value. -/
inductive Setting where
  | maxDepth
  | historySize
  deriving DecidableEq

inductive Switch where
  | help
  | version
  | noEcho
  deriving DecidableEq

def setting? (sub : Option Subcommand) (name : String) : Option Setting :=
  match name, sub with
  | "max-depth", _ => some .maxDepth
  | "history-size", some .interactive => some .historySize
  | _, _ => none

def switch? (sub : Option Subcommand) (name : String) : Option Switch :=
  match name, sub with
  | "help", _ => some .help
  | "version", none => some .version
  | "no-echo", some .batch => some .noEcho
  | _, _ => none

def letter? (sub : Option Subcommand) (c : Char) : Option Switch :=
  match c, sub with
  | 'h', _ => some .help
  | 'V', none => some .version
  | _, _ => none

inductive Shape where
  /-- `--`, after which nothing is an option. -/
  | terminator
  /-- `--name` or `--name=value`. -/
  | long (name : String) (value : Option String)
  /-- `-c` and whatever follows it in the same word. -/
  | short (c : Char)
  | plain
  deriving DecidableEq

def Shape.ofWord (word : String) : Shape :=
  match word.toList with
  | ['-', '-'] => .terminator
  | '-' :: '-' :: cs =>
    let name := String.ofList (cs.takeWhile (· != '='))
    match cs.dropWhile (· != '=') with
    | [] => .long name none
    | _ :: value => .long name (some (String.ofList value))
  | '-' :: c :: _ => .short c
  | _ => .plain

def wordLimit : Nat :=
  0x10000000000000000

/-- A value is decimal digits after an optional plus sign, and fits into a machine word. -/
def count? (text : String) : Option Nat :=
  let digits :=
    match text.toList with
    | '+' :: cs => cs
    | cs => cs
  if digits.isEmpty then none
  else (Numeral.positional? 10 digits).filter (· < wordLimit)

structure Given where
  maxDepth : Option Nat
  historySize : Option Nat
  noEcho : Bool

namespace Given

def nothing : Given :=
  ⟨none, none, false⟩

def get? (g : Given) : Setting → Option Nat
  | .maxDepth => g.maxDepth
  | .historySize => g.historySize

def put (g : Given) (n : Nat) : Setting → Given
  | .maxDepth => { g with maxDepth := some n }
  | .historySize => { g with historySize := some n }

/-- A second value for the same option is refused before anyone looks at it. -/
def set (g : Given) (s : Setting) (value : String) : Except Stop Given :=
  if (g.get? s).isSome then .error .repeatedOption
  else
    match count? value with
    | some n => .ok (g.put n s)
    | none => .error .malformedValue

end Given

/-- `pending` is the last option if its value stands in a word of its own, which may not have been
read yet. -/
structure State where
  given : Given
  pending : Option (Setting × Option String)

namespace State

def initial : State :=
  ⟨.nothing, none⟩

def awaitsValue (st : State) : Bool :=
  match st.pending with
  | some (_, none) => true
  | _ => false

def settle (st : State) : Except Stop Given :=
  match st.pending with
  | none => .ok st.given
  | some (_, none) => .error .missingValue
  | some (s, some value) => st.given.set s value

end State

/-- The words after `help` name at most one subcommand. -/
def helpOn : List String → Stop
  | [] => .help
  | [word] =>
    if (Subcommand.ofWord? word).isSome || word == "help" then .help else .unknownSubcommand
  | _ => .unknownSubcommand

def stray (sub : Option Subcommand) : Stop :=
  match sub with
  | none => .unknownSubcommand
  | some _ => .unknownArgument

/-- A word after `--`. Only the name of a subcommand is seen to be out of place. -/
def strayAfterTerminator (sub : Option Subcommand) (word : String) : Stop :=
  if (Subcommand.ofWord? word).isSome || word == "help" then .unknownArgument else stray sub

def Given.turnOn (g : Given) : Switch → Except Stop Given
  | .help => .error .help
  | .version => .error .version
  | .noEcho => if g.noEcho then .error .repeatedOption else .ok { g with noEcho := true }

/-- Reads the words of the program, or of a subcommand if there is one. The words of the program
end where a subcommand begins. -/
def readWords (sub : Option Subcommand) (st : State) :
    List String → Except Stop (State × Option (Subcommand × List String))
  | [] => .ok (st, none)
  | word :: rest =>
    if sub.isNone && !st.awaitsValue && word == "help" then .error (helpOn rest)
    else
      match if sub.isNone && !st.awaitsValue then Subcommand.ofWord? word else none with
      | some next => .ok (st, some (next, rest))
      | none =>
        match Shape.ofWord word with
        | .terminator =>
          match rest with
          | [] => .ok (st, none)
          | next :: _ => .error (strayAfterTerminator sub next)
        | .long name value =>
          match setting? sub name, switch? sub name, value with
          | some s, _, some value => do
            let given ← (← st.settle).set s value
            readWords sub ⟨given, none⟩ rest
          | some s, _, none => do
            let given ← st.settle
            readWords sub ⟨given, some (s, none)⟩ rest
          | none, some _, some _ => .error .unexpectedValue
          | none, some s, none => do
            let given ← (← st.settle).turnOn s
            readWords sub ⟨given, none⟩ rest
          | none, none, _ => .error .unknownArgument
        | .short c =>
          match letter? sub c with
          | some s => do
            let given ← (← st.settle).turnOn s
            readWords sub ⟨given, none⟩ rest
          | none => .error .unknownArgument
        | .plain =>
          match st.pending with
          | some (s, none) => readWords sub ⟨st.given, some (s, some word)⟩ rest
          | _ => .error (stray sub)

def defaultHistorySize : Nat :=
  20

def Subcommand.mode (given : Given) : Subcommand → Mode
  | .batch => .batch (!given.noEcho)
  | .interactive => .interactive (given.historySize.getD defaultHistorySize)

/-- A fault among the words of a subcommand is reported before one of a value in front of it. -/
def request (words : List String) : Except Stop Request := do
  let (st, command) ← readWords none .initial words
  match command with
  | none => do
    let outer ← st.settle
    pure ⟨outer.maxDepth.getD Machine.defaultMaxDepth, none⟩
  | some (sub, rest) => do
    let (innerState, _) ← readWords (some sub) .initial rest
    let inner ← innerState.settle
    let outer ← st.settle
    pure ⟨(inner.maxDepth <|> outer.maxDepth).getD Machine.defaultMaxDepth, some (sub.mode inner)⟩

end CommandLine

end ColonForth
