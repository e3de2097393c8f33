/-!
# RpcBindings.Yaml.Token

The tokens of a document.  Block structure, which the text expresses by indentation, is explicit
here: a block collection has a start and an end token like a flow collection in brackets.
-/

namespace RpcBindings.Yaml

/-- A token. -/
inductive Token where
  /-- The directive `%YAML major.minor`. -/
  | version (major : Nat)
  /-- The directive `%TAG handle uri`. -/
  | tagHandle (handle uri : String)
  /-- A directive of any other name. -/
  | directive
  | documentStart
  | documentEnd
  | blockSequenceStart
  | blockMappingStart
  | blockEnd
  | flowSequenceStart
  | flowSequenceEnd
  | flowMappingStart
  | flowMappingEnd
  | blockEntry
  | flowEntry
  | key
  | value
  | alias (name : String)
  | anchor (name : String)
  /-- A tag; one without a handle stands for its suffix alone. -/
  | tag (handle : Option String) (suffix : String)
  /-- A scalar, written plainly or in one of the quoted and block styles. -/
  | scalar (text : String) (plain : Bool)
deriving DecidableEq

end RpcBindings.Yaml
