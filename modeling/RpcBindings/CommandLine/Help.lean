import RpcBindings.CommandLine.Arguments

/-!
# RpcBindings.CommandLine.Help

The texts that explain the program.
-/

namespace RpcBindings

/-- The name and the version of the program. -/
def versionText : String := "rpc-stubgen, version 0.1.0\n"

namespace CommandName

/-- What a command is for. -/
def summary : CommandName → String
  | .generate => "Generate declarations and client stubs for one target."
  | .generateConfig => "Generate a placeholder YAML generator configuration with guidance comments."
  | .targets => "List the available generation targets."

end CommandName

namespace OptionRule

def usage : OptionRule → String
  | .withValue name => name ++ " TEXT"
  | .switch name none => name
  | .switch name (some letter) => String.ofList ['-', letter] ++ ", " ++ name

end OptionRule

def helpSection (title : String) (entries : List String) : String :=
  "\n" ++ title ++ ":\n" ++ String.join (entries.map fun entry => "  " ++ entry ++ "\n")

/-- Help on a command, or on the whole program. -/
def helpText : Option CommandName → String
  | some name =>
    "Usage: rpc-stubgen " ++ name.text ++ " [OPTIONS]\n\n  " ++ name.summary ++ "\n" ++
      helpSection "Options" (name.grammar.options.map OptionRule.usage)
  | none =>
    "Usage: rpc-stubgen [OPTIONS] COMMAND [ARGS]...\n\n" ++
      "  Schema-driven type and client stub generator.\n" ++
      helpSection "Options" (programGrammar.options.map OptionRule.usage) ++
      helpSection "Commands" (CommandName.all.map fun name => name.text ++ ": " ++ name.summary)

end RpcBindings
