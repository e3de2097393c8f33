import RpcBindings.Schema.Basic
import RpcBindings.Value.Display

/-!
# RpcBindings.Validation.Notice

Notices about declared defaults that are ignored.
-/

namespace RpcBindings

/-- How much a notice matters. -/
inductive Level where
  | debug
  | warning
deriving DecidableEq

def Level.name : Level → String
  | .debug => "DEBUG"
  | .warning => "WARNING"

/-- A notice about the default of a field. -/
inductive Notice where
  /-- The default is of another type than the field. -/
  | mismatchedDefault (owner field : String) (default : Value) (kind : Kind)
  /-- Fields of this kind take no default. -/
  | unsupportedDefault (owner field : String) (kind : Kind)

namespace Notice

def level : Notice → Level
  | .mismatchedDefault .. => .warning
  | .unsupportedDefault .. => .debug

def text : Notice → String
  | .mismatchedDefault owner field default kind =>
    s!"{owner}.{field}: default {default.display} does not match type {kind.name}, ignored"
  | .unsupportedDefault owner field kind =>
    s!"{owner}.{field}: defaults are not supported for {kind.name} fields, ignored"

end Notice

end RpcBindings
