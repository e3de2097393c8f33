import RpcBindings.Generation.Run

/-!
# RpcBindings.CommandLine.Command

The commands of the program, and what it needs of a terminal.  Telling commands from arguments and
putting texts out is left to a library.
-/

namespace RpcBindings

/-- A command with its arguments. -/
inductive Command where
  | generate (request : Request)
  /-- Writes the configuration that a user starts from. -/
  | generateConfig (output : String)
  /-- Lists the targets. -/
  | targets
deriving DecidableEq

/-- A refusal of a command line, which has been told to the user, and its exit code. -/
structure Rejection where
  code : Nat
  text : String
  code_ne_zero : code ≠ 0

/-- What is made of the arguments of a command line. -/
inductive Reading where
  | command (verbose : Bool) (command : Command)
  /-- Help or the version is asked for, and has been printed. -/
  | shown (text : String)
  | rejected (e : Rejection)
  | broken (e : Break)

/-- A reader of the arguments of command lines.  It may take a look at the files that they name. -/
class ArgumentReader (m : Type → Type) where
  read : List String → m Reading

/-- Where texts are put out. -/
class Console where
  /-- What becomes of a text that is printed. -/
  print : String → Except Break String
  /-- What becomes of a failure that is told on the error output. -/
  tell : String → String

end RpcBindings
