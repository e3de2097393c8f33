import RpcBindings.File.Error
import RpcBindings.Target.Registry

/-!
# RpcBindings.Configuration.Error

Why data are no configuration.
-/

namespace RpcBindings

/-- Why data are no configuration.  A cause that concerns one setting names its key. -/
inductive ConfigurationError where
  /-- There is nothing at the path. -/
  | fileNotFound (path : String)
  /-- The text is not a well-formed document. -/
  | unreadable
  /-- The document is no mapping. -/
  | rootNotMapping
  | unknownKeys (keys : List String)
  /-- There are unknown keys, the least of which is no text but of this type. -/
  | keyNotText (type : String)
  /-- There are unknown keys of types that have no common order. -/
  | keysWithoutOrder (type other : String)
  /-- There are unknown keys that are dates and others that are instants. -/
  | datesAndInstants
  /-- There are unknown keys that are instants with an offset and others without one. -/
  | localAndAbsolute
  /-- A path that is to be resolved cannot be handed to the system. -/
  | unfitPath (fault : FileFault)
  | sectionNotMapping (key : String)
  | notString (key : String)
  | isEmpty (key : String)
  | notBoolean (key : String)
  | unknownTarget (name : String)
  | notIdentifier (key name : String)
  | notConstant (key name : String)
  | tagsShape
  | tagNotString
  | noTags
deriving DecidableEq

/-- Whether a cause is one that readers of configurations provide for.  Keys that cannot be told to
the user in order, and paths that can be no file's, are not. -/
def ConfigurationError.isProvidedFor : ConfigurationError → Bool
  | .keyNotText _ | .keysWithoutOrder _ _ | .datesAndInstants | .localAndAbsolute | .unfitPath _ =>
    false
  | _ => true

def ConfigurationError.message : ConfigurationError → String
  | .fileNotFound path => s!"Configuration file not found: {path}"
  | .unreadable => "Failed to parse configuration file"
  | .rootNotMapping => "Configuration root must be a mapping."
  | .unknownKeys keys => "Unknown configuration keys: " ++ ", ".intercalate keys
  | .keyNotText type => s!"sequence item 0: expected str instance, {type} found"
  | .keysWithoutOrder type other =>
    s!"'<' not supported between instances of '{type}' and '{other}'"
  | .datesAndInstants => "can't compare datetime.datetime to datetime.date"
  | .localAndAbsolute => "can't compare offset-naive and offset-aware datetimes"
  | .unfitPath fault => fault.wording
  | .sectionNotMapping key => s!"Configuration section '{key}' must be a mapping."
  | .notString key => s!"{key} must be a string."
  | .isEmpty key => s!"{key} must not be empty."
  | .notBoolean key => s!"{key} must be a boolean."
  | .unknownTarget name =>
    s!"Unknown target '{name}'. Expected one of: " ++ ", ".intercalate Target.names
  | .notIdentifier key name => s!"{key} '{name}' is not a valid identifier."
  | .notConstant key name => s!"{key} '{name}' is not a valid Ruby constant name."
  | .tagsShape => "tags must be a string or list of strings."
  | .tagNotString => "tags entries must be strings."
  | .noTags => "tags must contain at least one tag."

end RpcBindings
