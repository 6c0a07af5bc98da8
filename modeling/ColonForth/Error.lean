/-! What can go wrong. Every cause but a failing device concerns one line of input only. -/
namespace ColonForth

inductive Error where
  | stackUnderflow
  | unknownToken (token : String)
  | malformedDefinition (clause : String)
  | definitionCycle (word : String)
  | io (reason : String)
  deriving DecidableEq

namespace Error

def message : Error → String
  | .stackUnderflow => "stack underflow"
  | .unknownToken token => token ++ " ?"
  | .malformedDefinition clause => "malformed definition: " ++ clause
  | .definitionCycle word => word ++ " ? (definition cycle)"
  | .io reason => "io error: " ++ reason

/-- A session goes on with the next line after a recoverable error. -/
def isRecoverable : Error → Bool
  | .io _ => false
  | _ => true

end Error

end ColonForth
