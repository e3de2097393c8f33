import RpcBindings.Value.Loader

/-!
# RpcBindings.Schema.Error

Why a document is no schema.  Most causes name the place in the document: a type, a field of a
type (`User.tags`), the items of an array field (`User.tags[]`) or a section.
-/

namespace RpcBindings

/-- A collection whose names must be distinct. -/
inductive Collection where
  | types
  | methods
deriving DecidableEq

/-- Why a document is no schema. -/
inductive SchemaError where
  /-- There is no file at the path. -/
  | fileNotFound (path : String)
  /-- The text is not a well-formed document. -/
  | unreadable
  /-- The document is no mapping. -/
  | rootNotMapping
  | duplicate (among : Collection) (name : String)
  /-- The place must hold a list. -/
  | notList (place : String)
  /-- Every entry of such a list must be a mapping. -/
  | entryNotMapping (entry : String)
  | notString (place : String)
  | isEmpty (place : String)
  | typeNotMapping (name : String)
  | fieldsShape (owner : String)
  | duplicateField (owner name : String)
  | fieldNotMapping (place : String)
  | requiredNotBoolean (place : String)
  /-- Both a type and a reference are given. -/
  | typeAndReference (place : String)
  | emptyReference (place : String)
  /-- Neither a type nor a reference is given. -/
  | noType (place : String)
  | unknownType (place name : String)
  | noItems (place : String)
  | enumNotList (place : String)
  | enumEntryNotString (place : String)
  | goNotMapping
  | goTagsNotList
  | goTagEmpty
deriving DecidableEq

/-- The wording of a schema error. -/
def SchemaError.message : SchemaError → String
  | .fileNotFound path => s!"Schema file not found: {path}"
  | .unreadable => "Invalid schema document"
  | .rootNotMapping => "Schema document root must be a mapping."
  | .duplicate .types name => s!"Duplicate type name: {name}"
  | .duplicate .methods name => s!"Duplicate method name: {name}"
  | .notList place => s!"{place} must be a list."
  | .entryNotMapping entry => s!"Each {entry} must be a mapping."
  | .notString place => s!"{place} must be a string."
  | .isEmpty place => s!"{place} must not be empty."
  | .typeNotMapping name => s!"Type '{name}' must be a mapping."
  | .fieldsShape owner => s!"{owner}: fields must be a mapping or a list."
  | .duplicateField owner name => s!"{owner}: duplicate field '{name}'"
  | .fieldNotMapping place => s!"{place}: field definition must be a mapping."
  | .requiredNotBoolean place => s!"{place}: required must be a boolean."
  | .typeAndReference place => place ++ ": must not set both type and $ref."
  | .emptyReference place => place ++ ": $ref must be a non-empty string."
  | .noType place => place ++ ": type or $ref is required."
  | .unknownType place name => s!"{place}: unknown type '{name}'."
  | .noItems place => s!"{place}: array type requires items."
  | .enumNotList place => s!"{place}: enum must be a list of strings."
  | .enumEntryNotString place => s!"{place}: enum entries must be strings."
  | .goNotMapping => "go must be a mapping."
  | .goTagsNotList => "go.tags must be a list of strings."
  | .goTagEmpty => "go.tags entries must be non-empty strings."

/-- Why a text gives no schema. -/
inductive LoadError where
  | schema (e : SchemaError)
  | broken (e : Break)
  | beyond

end RpcBindings
