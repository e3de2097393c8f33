import RpcBindings.Schema.Basic

/-!
# RpcBindings.Validation.Step

The single steps of validation and the messages of those that fail.  A message names the field and
what is wrong with it; the message of an element of an array is preceded by the element's index,
once for every level of nesting.
-/

namespace RpcBindings

/-- What a required field lacks. -/
def requiredMessage : String := "is required"

/-- An allowed text in double quotes, its backslashes and quotes escaped. -/
def allowedChars (cs : List Char) : List Char :=
  '"' :: cs.flatMap (fun c => if c == '\\' || c == '"' then ['\\', c] else [c]) ++ ['"']

/-- The message that lists the allowed texts in the order of their declaration. -/
def enumMessage (allowed : List String) : String :=
  "must be one of: " ++
    ", ".intercalate (allowed.map fun text => String.ofList (allowedChars text.toList))

def fieldMessage (field message : String) : String :=
  s!"Field: {field}, Message: {message}"

def elementMessage (index : Nat) (message : String) : String :=
  s!"element {index}: {message}"

/-- A default that can be substituted. -/
inductive DefaultValue where
  | int (i : Int)
  | text (s : String)
deriving DecidableEq

/-- A default as a datum. -/
def DefaultValue.value : DefaultValue → Value
  | .int i => .int i
  | .text s => .text s

/-- A default as text, without quotes. -/
def DefaultValue.render : DefaultValue → String
  | .int i => toString i
  | .text s => s

/-- A step of validation. -/
inductive Step where
  /-- Replaces a zero value. -/
  | default (value : DefaultValue)
  /-- Fails on a zero value. -/
  | required
  /-- Fails on a text that is neither empty nor allowed. -/
  | oneOf (allowed : List String)
  /-- Validates each element of an array against the plan of a declared type. -/
  | elements (type : String)
deriving DecidableEq

/-- The message of a step that fails by itself. -/
def Step.message? (field : String) : Step → Option String
  | .required => some (fieldMessage field requiredMessage)
  | .oneOf allowed => some (fieldMessage field (enumMessage allowed))
  | .default _ | .elements _ => none

end RpcBindings
