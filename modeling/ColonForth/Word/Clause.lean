import ColonForth.Error
import ColonForth.Text.Words

/-! Colon definitions. A line holds at most one clause `: name body ;`. -/
namespace ColonForth
open Text

def opener : String := ":"

def closer : String := ";"

def isDelimiter (token : String) : Bool :=
  token == opener || token == closer

def isPlain (token : String) : Bool :=
  !isDelimiter token

/-- Joins the tokens from `:` to `;` into one token. Without delimiters the tokens stay as they
are; any other arrangement of delimiters than one `:` and one later `;` is malformed. -/
def foldClause (tokens : List String) : Except Error (List String) :=
  match tokens.dropWhile isPlain with
  | [] => .ok tokens
  | first :: rest =>
    match rest.dropWhile isPlain with
    | [] => .error (.malformedDefinition (joinWords tokens))
    | last :: after =>
      if first = opener ∧ last = closer ∧ after.all isPlain then
        .ok (tokens.takeWhile isPlain ++
          joinWords (first :: rest.takeWhile isPlain ++ [last]) :: after)
      else .error (.malformedDefinition (joinWords tokens))

structure Definition where
  name : String
  body : String
  deriving DecidableEq

def dropCloser (tokens : List String) : List String :=
  if tokens.getLast? = some closer then tokens.dropLast else tokens

/-- The word after `:` is the name and the words after it are the body, up to a `;` at the end,
which may be absent. -/
def Definition.ofWords? : List String → Option Definition
  | [] => none
  | first :: rest =>
    match dropCloser rest with
    | [] => none
    | name :: body => if first = opener then some ⟨name, joinWords body⟩ else none

def Definition.ofClause (clause : String) : Except Error Definition :=
  match ofWords? (words clause) with
  | some d => .ok d
  | none => .error (.malformedDefinition clause)

theorem foldClause_of_plain {tokens : List String} (h : ∀ t ∈ tokens, isPlain t = true) :
    foldClause tokens = .ok tokens := by
  have hdrop : (tokens ++ []).dropWhile isPlain = [].dropWhile isPlain :=
    List.dropWhile_append_of_pos h
  rw [List.append_nil] at hdrop
  simp [foldClause, hdrop]

theorem foldClause_of_clause {before body after : List String}
    (hbefore : ∀ t ∈ before, isPlain t = true) (hbody : ∀ t ∈ body, isPlain t = true)
    (hafter : ∀ t ∈ after, isPlain t = true) :
    foldClause (before ++ opener :: (body ++ closer :: after)) =
      .ok (before ++ joinWords (opener :: body ++ [closer]) :: after) := by
  have hopener : isPlain opener = false := rfl
  have hcloser : isPlain closer = false := rfl
  simp [foldClause, List.dropWhile_append_of_pos hbefore, List.takeWhile_append_of_pos hbefore,
    List.dropWhile_append_of_pos hbody, List.takeWhile_append_of_pos hbody, hopener, hcloser,
    List.all_eq_true.mpr hafter]

theorem isWord_opener : IsWord opener := by decide

theorem isWord_closer : IsWord closer := by decide

theorem isWord_of_mem_clause {inner : List String} (h : ∀ w ∈ inner, IsWord w) :
    ∀ w ∈ opener :: inner ++ [closer], IsWord w := by
  intro w hw
  simp only [List.cons_append, List.mem_cons, List.mem_append, List.not_mem_nil, or_false] at hw
  rcases hw with rfl | hw | rfl
  · exact isWord_opener
  · exact h w hw
  · exact isWord_closer

theorem Definition.ofWords?_clause (name : String) (body : List String) :
    Definition.ofWords? (opener :: (name :: body ++ [closer])) = some ⟨name, joinWords body⟩ := by
  have hlast : (name :: body ++ [closer]).getLast? = some closer := List.getLast?_concat
  rw [Definition.ofWords?, dropCloser, if_pos hlast, List.dropLast_concat]
  simp

/-- A folded clause gives its name and body back, also when they hold delimiters. -/
theorem Definition.ofClause_joinWords {name : String} {body : List String} (hname : IsWord name)
    (hbody : ∀ w ∈ body, IsWord w) :
    Definition.ofClause (joinWords (opener :: (name :: body ++ [closer]))) =
      .ok ⟨name, joinWords body⟩ := by
  have hinner : ∀ w ∈ name :: body, IsWord w := List.forall_mem_cons.mpr ⟨hname, hbody⟩
  have hwords : ∀ w ∈ opener :: (name :: body ++ [closer]), IsWord w := isWord_of_mem_clause hinner
  rw [Definition.ofClause, words_joinWords hwords, Definition.ofWords?_clause]

end ColonForth
