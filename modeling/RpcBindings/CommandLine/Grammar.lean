import RpcBindings.CommandLine.Error
import RpcBindings.Text.Similarity

/-!
# RpcBindings.CommandLine.Grammar

Telling options from other arguments.  An option is written `--name`, with its value after an equals
sign or as the next argument; a switch may have a letter, and letters may share one dash.  After the
argument `--` nothing is an option.
-/

namespace RpcBindings

/-- An option that a command has. -/
inductive OptionRule where
  | withValue (name : String)
  | switch (name : String) (letter : Option Char)

def OptionRule.name : OptionRule → String
  | .withValue name | .switch name _ => name

/-- An option as it was given. -/
structure GivenOption where
  name : String
  value : Option String
deriving DecidableEq

/-- The options of a command, and whether they may follow other arguments. -/
structure Grammar where
  options : List OptionRule
  anywhere : Bool

/-- What an argument that begins with a dash stands for. -/
inductive OptionArgument where
  | complete (options : List GivenOption)
  /-- The value of this option is the next argument. -/
  | awaitsValue (name : String)

namespace Grammar

/-- Whether an argument stands for options: a dash alone does not. -/
def isOptionArgument (argument : String) : Bool :=
  match argument.toList with
  | '-' :: _ :: _ => true
  | _ => false

/-- What precedes the first equals sign, and what follows it if there is one. -/
def splitValue (argument : String) : String × Option String :=
  let cs := argument.toList
  let name := String.ofList (cs.takeWhile (· != '='))
  match cs.dropWhile (· != '=') with
  | [] => (name, none)
  | _ :: value => (name, some (String.ofList value))

/-- The switch of a letter. -/
def letterSwitch (g : Grammar) (letter : Char) : Except UsageError GivenOption :=
  let isNamed
    | OptionRule.switch _ (some l) => l == letter
    | _ => false
  match g.options.find? isNamed with
  | some rule => .ok ⟨rule.name, none⟩
  | none => .error (.unknownOption (String.ofList ['-', letter]) [])

/-- What an argument that begins with a dash stands for. -/
def readOption (g : Grammar) (argument : String) : Except UsageError OptionArgument :=
  let (name, value) := splitValue argument
  match g.options.find? (·.name == name), value with
  | some (.withValue name), some value => .ok (.complete [⟨name, some value⟩])
  | some (.withValue name), none => .ok (.awaitsValue name)
  | some (.switch name _), none => .ok (.complete [⟨name, none⟩])
  | some (.switch name _), some _ => .error (.unexpectedValue name)
  | none, _ =>
    match argument.toList with
    | '-' :: '-' :: _ =>
      .error (.unknownOption name (Text.closest name (g.options.map OptionRule.name)))
    | cs => (cs.drop 1).mapM g.letterSwitch |>.map .complete

/-- The options among some arguments, and the other arguments. -/
def parse (g : Grammar) : List String → Except UsageError (List GivenOption × List String)
  | [] => .ok ([], [])
  | argument :: rest =>
    if argument == "--" then .ok ([], rest)
    else if isOptionArgument argument then
      match g.readOption argument with
      | .error e => .error e
      | .ok (.complete options) => do
        let (more, others) ← g.parse rest
        return (options ++ more, others)
      | .ok (.awaitsValue name) =>
        match rest with
        | [] => .error (.missingValue name)
        | value :: rest => do
          let (more, others) ← g.parse rest
          return (⟨name, some value⟩ :: more, others)
    else if g.anywhere then do
      let (options, others) ← g.parse rest
      return (options, argument :: others)
    else .ok ([], argument :: rest)

end Grammar

end RpcBindings
