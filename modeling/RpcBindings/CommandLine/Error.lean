import RpcBindings.File.Error

/-!
# RpcBindings.CommandLine.Error

Why a command line cannot be understood.
-/

namespace RpcBindings

/-- Why a command line cannot be understood.  Options are named with their dashes. -/
inductive UsageError where
  /-- There are no arguments at all. -/
  | nothing
  | missingCommand
  | unknownCommand (name : String)
  /-- There is no such option; some that there are have similar names. -/
  | unknownOption (name : String) (similar : List String)
  | missingValue (option : String)
  | unexpectedValue (option : String)
  /-- The value is none of those that the option can have. -/
  | notAChoice (option value : String) (choices : List String)
  /-- The value is to be a path and cannot be handed to the system. -/
  | unfitPath (fault : FileFault)
  | extraArguments (arguments : List String)
deriving DecidableEq

/-- What was perhaps meant by an unknown name. -/
def suggestion : List String → String
  | [] => ""
  | [name] => s!" Did you mean {name}?"
  | names => " (Possible options: " ++ ", ".intercalate (names.mergeSort fun a b => a ≤ b) ++ ")"

def UsageError.message : UsageError → String
  | .nothing => ""
  | .missingCommand => "Missing command."
  | .unknownCommand name => s!"No such command {Text.quoted name}."
  | .unknownOption name similar => s!"No such option: {name}{suggestion similar}"
  | .missingValue option => s!"Option {Text.quoted option} requires an argument."
  | .unexpectedValue option => s!"Option {Text.quoted option} does not take a value."
  | .notAChoice option value choices =>
    let listed := ", ".intercalate (choices.map Text.quoted)
    s!"Invalid value for '{option}': {Text.quoted value} is not one of {listed}."
  | .unfitPath fault => fault.wording
  | .extraArguments arguments =>
    let noun := if arguments.length == 1 then "argument" else "arguments"
    s!"Got unexpected extra {noun} (" ++ " ".intercalate arguments ++ ")"

end RpcBindings
