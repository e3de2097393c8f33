import RpcBindings.File.Access
import RpcBindings.Target.Registry

/-!
# RpcBindings.Configuration.Template

The configuration file that a user starts from.
-/

namespace RpcBindings

namespace Configuration

/-- The usual name of a configuration file. -/
def usualFileName : String := "rpc-stubgen.yaml"

/-- A configuration with placeholders, and comments that say what belongs in their place. -/
def template : String :=
  String.join <| List.map (· ++ "\n")
    ["# Generator configuration for rpc-stubgen.",
     "# Replace every <REQUIRED> placeholder before running generate.",
     "# Command line options override the values below.",
     "",
     "# Path to the JSON or YAML schema, relative to this file.",
     "schema: \"<REQUIRED>\"",
     "",
     "# One of: " ++ ", ".intercalate Target.names ++ ".",
     "target: \"<REQUIRED>\"",
     "",
     "# Destination of the generated document; omit to print to stdout.",
     "# output: \"<OPTIONAL>\"",
     "",
     "# Go package name (go-types).",
     "package: \"api\"",
     "",
     "# Module import used for fetch (ts-client).",
     "fetch_library: \"node-fetch\"",
     "",
     "# Struct tags written for each Go field; defaults to the schema's go.tags.",
     "# tags:",
     "#   - \"json\"",
     "",
     "# Emit validation operations; defaults depend on the target.",
     "# validate: true",
     "",
     "# Ruby module and class names (ruby-client).",
     "ruby:",
     "  module: \"Api\"",
     "  class: \"Client\""]

end Configuration

/-! ## Writing it -/

/-- Why the template is not written. -/
inductive TemplateError where
  /-- There is something at the path already. -/
  | present (path : Path)
  | file (e : FileError)

/-- Whether the failure is one that is provided for: a path that can be no file's is not. -/
def TemplateError.isReported : TemplateError → Bool
  | .present _ => true
  | .file e => e.fault.isOfSystem

def TemplateError.message : TemplateError → String
  | .present path => s!"Configuration file already exists: {path.text}"
  | .file e => e.message

namespace Configuration

variable {m : Type → Type} [Monad m] [FileAccess m]

/-- Writes the template to a path where there is nothing yet, and gives the path from the root. -/
def writeTemplate (path : Path) : ExceptT TemplateError m Path := do
  let resolved := (← (FileAccess.currentDirectory : m Path)).resolve path
  if ← ExceptT.adapt TemplateError.file (FileAccess.isPresent path) then throw (.present resolved)
  ExceptT.adapt TemplateError.file (FileAccess.write path template.toUTF8.toList)
  return resolved

end Configuration

end RpcBindings
