import RpcBindings.CommandLine.Command
import RpcBindings.CommandLine.Grammar
import RpcBindings.Configuration.Template

/-!
# RpcBindings.CommandLine.Arguments

The arguments that each command takes.  Options that ask for help or for the
version win over everything but arguments that cannot be told apart.  Of an option given more than
once the last one counts, except for tags, which add up.
-/

namespace RpcBindings

/-- The names of the commands. -/
inductive CommandName where
  | generate
  | generateConfig
  | targets
deriving DecidableEq

/-- What a command line asks for. -/
inductive Invocation where
  /-- Help on a command, or on the whole program. -/
  | help (command : Option CommandName)
  | version
  | run (verbose : Bool) (command : Command)

namespace CommandName

def text : CommandName → String
  | .generate => "generate"
  | .generateConfig => "generate-config"
  | .targets => "targets"

def all : List CommandName := [.generate, .generateConfig, .targets]

/-- The command of a name. -/
def ofText? (s : String) : Option CommandName :=
  all.find? (·.text == s)

end CommandName

/-! ## Options -/

/-- The option that every command has. -/
def helpRule : OptionRule := .switch "--help" (some 'h')

/-- The options in front of the command. -/
def programGrammar : Grammar where
  options := [.switch "--version" none, .switch "--verbose" (some 'v'), helpRule]
  anywhere := false

/-- The options of a command. -/
def CommandName.grammar : CommandName → Grammar
  | .generate =>
    { options :=
        [.withValue "--config", .withValue "--schema", .withValue "--target", .withValue "--output",
         .withValue "--package", .withValue "--fetch-library", .withValue "--tag",
         .switch "--validate" none, .switch "--no-validate" none, .withValue "--ruby-module",
         .withValue "--ruby-class", helpRule]
      anywhere := true }
  | .generateConfig => { options := [.withValue "--output", helpRule], anywhere := true }
  | .targets => { options := [helpRule], anywhere := true }

/-- The options whose values are paths. -/
def pathOptions : List String := ["--config", "--schema", "--output"]

/-- The values given for an option, in order. -/
def valuesOf (options : List GivenOption) (name : String) : List String :=
  (options.filter (·.name == name)).filterMap (·.value)

/-- The value that counts for an option. -/
def valueOf? (options : List GivenOption) (name : String) : Option String :=
  (valuesOf options name).getLast?

/-- Which of two opposite switches counts. -/
def choiceOf? (options : List GivenOption) (yes no : String) : Option Bool :=
  ((options.map (·.name)).filter fun name => name == yes || name == no).getLast?.map (· == yes)

/-- The request that options state. -/
def requestOf (options : List GivenOption) : Request where
  config := valueOf? options "--config"
  schema := valueOf? options "--schema"
  target := valueOf? options "--target"
  output := valueOf? options "--output"
  package := valueOf? options "--package"
  fetchLibrary := valueOf? options "--fetch-library"
  tags := valuesOf options "--tag"
  validate := choiceOf? options "--validate" "--no-validate"
  rubyModule := valueOf? options "--ruby-module"
  rubyClass := valueOf? options "--ruby-class"

/-! ## Reading -/

section

variable [Encoding]

/-- Refuses a value that its option cannot have: a target that does not exist, or a path that can be
no file's. -/
def checkValue (options : List GivenOption) (name : String) : Except UsageError Unit :=
  match valueOf? options name with
  | none => .ok ()
  | some value =>
    if name == "--target" then
      if Target.names.contains value then .ok ()
      else .error (.notAChoice name value Target.names)
    else
      match (Path.ofString value).fault? with
      | some fault => if pathOptions.contains name then .error (.unfitPath fault) else .ok ()
      | none => .ok ()

/-- Refuses values that their options cannot have.  Of several the one is found whose option was
first given first. -/
def checkValues (options : List GivenOption) : Except UsageError Unit :=
  (options.map (·.name)).eraseDups.forM (checkValue options)

namespace CommandName

/-- The command that options state. -/
def command (options : List GivenOption) : CommandName → Command
  | .generate => .generate (requestOf options)
  | .generateConfig =>
    .generateConfig ((valueOf? options "--output").getD Configuration.usualFileName)
  | .targets => .targets

/-- What the arguments behind the name of a command ask for. -/
def read (name : CommandName) (verbose : Bool) (arguments : List String) :
    Except UsageError Invocation := do
  let (options, others) ← name.grammar.parse arguments
  if options.any (·.name == helpRule.name) then return .help (some name)
  checkValues options
  if others.isEmpty then return .run verbose (name.command options)
  else throw (.extraArguments others)

end CommandName

end

/-- What the options in front of the command ask for by themselves: the first of those that do. -/
def immediate? (options : List GivenOption) : Option Invocation :=
  options.findSome? fun option =>
    if option.name == helpRule.name then some (.help none)
    else if option.name == "--version" then some .version
    else none

/-- The answer to a name that is no command's.  One that could be an option, which it can be only
behind `--`, is read as one first. -/
def readUnknown (name : String) (arguments : List String) : Except UsageError Invocation := do
  let (options, _) ← programGrammar.parse (name :: arguments)
  match immediate? options with
  | some invocation => return invocation
  | none => throw (.unknownCommand name)

/-- What a command line asks for. -/
def Invocation.ofArguments [Encoding] (arguments : List String) : Except UsageError Invocation := do
  if arguments.isEmpty then throw .nothing
  let (options, others) ← programGrammar.parse arguments
  match immediate? options, others with
  | some invocation, _ => return invocation
  | none, [] => throw .missingCommand
  | none, name :: arguments =>
    match CommandName.ofText? name with
    | some command => command.read (options.any (·.name == "--verbose")) arguments
    | none => readUnknown name arguments

end RpcBindings
