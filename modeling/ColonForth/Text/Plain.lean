/-! Plain text: what is left of a text when its control functions are taken out. Tabs, returns and
the ends of lines and pages only lay text out and stay, but a control string swallows these too. -/
namespace ColonForth.Text

def isControl (c : Char) : Bool :=
  decide (c.toNat < 0x20) || c == '\x7f'

def isLayout (c : Char) : Bool :=
  c == '\t' || c == '\n' || c == '\x0c' || c == '\r'

def isShown (c : Char) : Bool :=
  !isControl c || isLayout c

/-- Where a character stands among the control functions. -/
inductive Passage where
  /-- Outside of them all. -/
  | text
  /-- Behind an escape character. -/
  | escape
  /-- In an escape sequence that goes on. -/
  | escapeSequence
  | controlSequence
  /-- In a command to the system, which a bell ends. -/
  | systemCommand
  /-- In front of the parameters of a device control string. -/
  | deviceControl
  | deviceParameters
  | deviceIntermediates
  /-- In a string that the byte 0x9C ends, even inside the encoding of a character. -/
  | controlString
  deriving DecidableEq

namespace Passage

/-- The passage that an escape character and `c` begin. Other control characters and characters
beyond ASCII begin nothing. -/
def afterEscape (c : Char) : Passage :=
  match c with
  | '[' => .controlSequence
  | ']' => .systemCommand
  | 'P' => .deviceControl
  | 'X' | '^' | '_' => .controlString
  | c =>
    if ' ' ≤ c ∧ c ≤ '/' then .escapeSequence
    else if '0' ≤ c ∧ c ≤ '~' then .text
    else .escape

/-- The passage after `c`. Cancel and substitute end every control function, and an escape
character begins a new one. -/
def next (p : Passage) (c : Char) : Passage :=
  if c = '\x18' ∨ c = '\x1a' then .text
  else if c = '\x1b' then .escape
  else
    match p with
    | .text => .text
    | .escape => afterEscape c
    | .escapeSequence => if '0' ≤ c ∧ c ≤ '~' then .text else .escapeSequence
    | .controlSequence => if '@' ≤ c ∧ c ≤ '~' then .text else .controlSequence
    | .systemCommand => if c = '\x07' then .text else .systemCommand
    | .deviceControl =>
      if ' ' ≤ c ∧ c ≤ '/' then .deviceIntermediates
      else if '0' ≤ c ∧ c ≤ '?' then .deviceParameters
      else if '@' ≤ c ∧ c ≤ '~' then .controlString
      else .deviceControl
    | .deviceParameters =>
      if ' ' ≤ c ∧ c ≤ '/' then .deviceIntermediates
      else if '<' ≤ c ∧ c ≤ '~' then .controlString
      else .deviceParameters
    | .deviceIntermediates => if '0' ≤ c ∧ c ≤ '~' then .controlString else .deviceIntermediates
    | .controlString => if 0x9C ∈ String.utf8EncodeChar c then .text else .controlString

def keeps (p : Passage) (c : Char) : Bool :=
  match p with
  | .text => isShown c
  | .escape | .escapeSequence | .controlSequence => isLayout c
  | _ => false

def leaves : Passage → List Char → List Char
  | _, [] => []
  | p, c :: cs => if p.keeps c then c :: leaves (p.next c) cs else leaves (p.next c) cs

theorem next_text_of_isShown {c : Char} (h : isShown c = true) : next .text c = .text := by
  by_cases hc : c = '\x1b'
  · subst hc
    exact absurd h (by decide)
  · simp [next, hc]

theorem leaves_of_isShown {cs : List Char} (h : ∀ c ∈ cs, isShown c = true) :
    leaves .text cs = cs := by
  induction cs with
  | nil => rfl
  | cons c cs ih =>
    have hc := h c List.mem_cons_self
    simp [leaves, keeps, hc, next_text_of_isShown hc,
      ih fun d hd => h d (List.mem_cons_of_mem c hd)]

theorem isShown_of_keeps {p : Passage} {c : Char} (h : p.keeps c = true) : isShown c = true := by
  cases p <;> simp_all [keeps, isShown]

theorem isShown_of_mem_leaves {p : Passage} {cs : List Char} {c : Char} (h : c ∈ p.leaves cs) :
    isShown c = true := by
  induction cs generalizing p with
  | nil => simp [leaves] at h
  | cons d cs ih =>
    rw [leaves] at h
    split at h
    · next hd =>
      rcases List.mem_cons.mp h with rfl | h
      · exact isShown_of_keeps hd
      · exact ih h
    · exact ih h

end Passage

def plain (text : String) : String :=
  String.ofList (Passage.leaves .text text.toList)

/-- Whether the end of a line would be seen after the text. -/
def endsPlain (text : String) : Bool :=
  (text.toList.foldl Passage.next .text).keeps '\n'

theorem plain_eq_self {text : String} (h : ∀ c ∈ text.toList, isControl c = false) :
    plain text = text := by
  rw [plain, Passage.leaves_of_isShown fun c hc => by simp [isShown, h c hc], String.ofList_toList]

/-- Taking the control functions out once is enough. -/
theorem plain_plain (text : String) : plain (plain text) = plain text := by
  rw [plain, plain, String.toList_ofList,
    Passage.leaves_of_isShown fun _ hc => Passage.isShown_of_mem_leaves hc]

end ColonForth.Text
