import RpcBindings.Schema.Basic
import RpcBindings.Schema.Error
import RpcBindings.Text.Blank

/-!
# RpcBindings.Schema.Reader

The schema that a document describes.  Types and field lists are written either as a mapping from
names to definitions or as a list of definitions that hold their names; methods are a list.  Names,
descriptions and tags are trimmed.
-/

namespace RpcBindings

namespace Schema

/-! ## Texts and lists -/

/-- A trimmed text; null stands for the empty one. -/
def textAt (place : String) : Value → Except SchemaError String
  | .null => .ok ""
  | .text s => .ok (Text.trim s)
  | _ => .error (.notString place)

/-- A trimmed text that is not empty. -/
def nameAt (place : String) : Value → Except SchemaError String
  | .text s =>
    let trimmed := Text.trim s
    if trimmed.isEmpty then .error (.isEmpty place) else .ok trimmed
  | _ => .error (.notString place)

/-- The name in a definition. -/
def nameIn (what : String) : Value → Except SchemaError String
  | .map entries => nameAt s!"{what} name" (Entries.get entries "name")
  | _ => .error (.entryNotMapping what)

/-- The items of a list; null stands for the empty one. -/
def listAt (place : String) (v : Value) : Except SchemaError (List Value) :=
  match v with
  | .null => .ok []
  | v =>
    match v.items? with
    | some items => .ok items
    | none => .error (.notList place)

/-! ## Descriptors -/

/-- What precedes the name of a declared type in a reference. -/
def referencePrefix : List Char := "#/types/".toList

/-- The name of the type that a reference means. -/
def targetOf (reference : String) : String :=
  let cs := Text.trimChars reference.toList
  String.ofList (if referencePrefix.isPrefixOf cs then cs.drop referencePrefix.length else cs)

/-- The value found under a key is smaller than the mapping. -/
theorem sizeOf_lt_of_find? {entries : Entries} {name : String} {v : Value}
    (h : Entries.find? entries name = some v) : sizeOf v < sizeOf entries := by
  obtain ⟨⟨key, value⟩, hfind, rfl⟩ := Option.map_eq_some_iff.1 h
  have hmem := List.mem_of_find?_eq_some hfind
  have hlt := List.sizeOf_lt_of_mem hmem
  rw [Prod.mk.sizeOf_spec] at hlt
  show sizeOf value < sizeOf entries
  omega

/-- The type that a definition states, as `type` or as `$ref`; an array needs `items`. -/
def descriptorOf (place : String) (body : Entries) : Except SchemaError Descriptor :=
  match Entries.get body "$ref", Entries.get body "type" with
  | .null, .text name =>
    match Kind.ofName? name with
    | none => .error (.unknownType place name)
    | some .array =>
      match _h : Entries.find? body "items" with
      | some (.map items) => (descriptorOf (place ++ "[]") items).map Descriptor.array
      | _ => .error (.noItems place)
    | some kind => .ok (.primitive kind)
  | .null, _ => .error (.noType place)
  | .text reference, .null =>
    if (Text.trim reference).isEmpty then .error (.emptyReference place)
    else .ok (.reference (targetOf reference))
  | _, .null => .error (.emptyReference place)
  | _, _ => .error (.typeAndReference place)
termination_by sizeOf body
decreasing_by
  have hlt := sizeOf_lt_of_find? _h
  rw [Value.map.sizeOf_spec] at hlt
  omega

/-! ## Fields -/

/-- The allowed texts of a field; null leaves them unrestricted. -/
def enumAt (place : String) (v : Value) : Except SchemaError (Option (List String)) :=
  match v with
  | .null => .ok none
  | v =>
    match v.items? with
    | none => .error (.enumNotList place)
    | some items =>
      match items.mapM Value.text? with
      | some texts => .ok (some texts)
      | none => .error (.enumEntryNotString place)

/-- Whether a field is required; it is not where nothing is said. -/
def requiredAt (place : String) : Option Value → Except SchemaError Bool
  | none => .ok false
  | some (.bool b) => .ok b
  | some _ => .error (.requiredNotBoolean place)

/-- The field that a definition describes. -/
def fieldOf (owner name : String) : Value → Except SchemaError Field
  | .map body => do
    let place := s!"{owner}.{name}"
    let required ← requiredAt place (Entries.find? body "required")
    let description ← textAt s!"{place}.description" (Entries.get body "description")
    let type ← descriptorOf place body
    let enum ← enumAt place (Entries.get body "enum")
    return { name, type, description, required, default := Entries.get body "default", enum }
  | _ => .error (.fieldNotMapping s!"{owner}.{name}")

/-- The fields that definitions under names describe; `seen` names came before. -/
def fieldsOfPairs (owner : String) (seen : List String) :
    List (Value × Value) → Except SchemaError (List Field)
  | [] => .ok []
  | (key, body) :: rest => do
    let name ← nameAt s!"{owner} field name" key
    if seen.contains name then throw (.duplicateField owner name)
    let field ← fieldOf owner name body
    let fields ← fieldsOfPairs owner (name :: seen) rest
    return field :: fields

/-- Definitions with the names that they hold. -/
def namedBodies (what : String) (items : List Value) :
    Except SchemaError (List (Value × Value)) :=
  items.mapM fun item => do
    let name ← nameIn what item
    return (.text name, item)

/-- The fields of an owner, from a mapping or from a list; null stands for none. -/
def fieldsOf (owner : String) (v : Value) : Except SchemaError (List Field) :=
  match v with
  | .null => .ok []
  | .map entries => fieldsOfPairs owner [] entries
  | v =>
    match v.items? with
    | some items => do
      let pairs ← namedBodies s!"{owner} field" items
      fieldsOfPairs owner [] pairs
    | none => .error (.fieldsShape owner)

/-! ## Types and methods -/

/-- The type that a definition under a name describes; null stands for an empty definition. -/
def typeOf (key : Value) (body : Value) : Except SchemaError ObjectType := do
  let name ← nameAt "type name" key
  let entries : Entries ←
    match body with
    | .null => pure []
    | .map entries => pure entries
    | _ => throw (.typeNotMapping name)
  let description ← textAt s!"{name}.description" (Entries.get entries "description")
  let properties ← fieldsOf name (Entries.get entries "properties")
  return { name, description, properties }

/-- The types of a schema, from a mapping or from a list. -/
def typesOf : Value → Except SchemaError (List ObjectType)
  | .map entries => entries.mapM fun (key, body) => typeOf key body
  | v => do
    let items ← listAt "types" v
    items.mapM fun item => do
      let name ← nameIn "type" item
      typeOf (.text name) item

/-- The method that a definition describes. -/
def methodOf (v : Value) : Except SchemaError Method := do
  let name ← nameIn "method" v
  let body := v.entries?.getD []
  let description ← textAt s!"{name}.description" (Entries.get body "description")
  let inputs ← fieldsOf s!"{name} inputs" (Entries.get body "inputs")
  let outputs ← fieldsOf s!"{name} outputs" (Entries.get body "outputs")
  return { name, description, inputs, outputs }

/-- The methods of a schema. -/
def methodsOf (v : Value) : Except SchemaError (List Method) := do
  let items ← listAt "methods" v
  items.mapM methodOf

/-! ## The whole schema -/

/-- The tags that are written where a schema states none. -/
def usualTags : List String := ["json"]

/-- One tag. -/
def tagOf : Value → Except SchemaError String
  | .text s =>
    let trimmed := Text.trim s
    if trimmed.isEmpty then .error .goTagEmpty else .ok trimmed
  | _ => .error .goTagEmpty

/-- The tags in the `go` section of a schema. -/
def goTagsOf : Value → Except SchemaError (List String)
  | .null => .ok usualTags
  | .map entries =>
    match Entries.get entries "tags" with
    | .null => .ok usualTags
    | v =>
      match v.items? with
      | some items => items.mapM tagOf
      | none => .error .goTagsNotList
  | _ => .error .goNotMapping

/-- The schema with these parts, if names are distinct; a repeated type name is reported before a
repeated method name. -/
def ofParts (name description : String) (types : List ObjectType) (methods : List Method)
    (goTags : List String) : Except SchemaError Schema :=
  match ht : firstRepeated? [] (types.map (·.name)) with
  | some repeated => .error (.duplicate .types repeated)
  | none =>
    match hm : firstRepeated? [] (methods.map (·.name)) with
    | some repeated => .error (.duplicate .methods repeated)
    | none =>
      .ok ⟨name, description, types, methods, goTags,
        (nodup_of_firstRepeated?_eq_none ht).1, (nodup_of_firstRepeated?_eq_none hm).1⟩

/-- The schema that a datum describes. -/
def ofValue : Value → Except SchemaError Schema
  | .map root => do
    let types ← typesOf (Entries.get root "types")
    let methods ← methodsOf (Entries.get root "methods")
    let name ← textAt "name" (Entries.get root "name")
    let description ← textAt "description" (Entries.get root "description")
    let goTags ← goTagsOf (Entries.get root "go")
    ofParts name description types methods goTags
  | _ => .error .rootNotMapping

/-- The schema that a text describes. -/
def read [Loader] (text : List Char) : Except LoadError Schema :=
  match Loader.load text with
  | .malformed => .error (.schema .unreadable)
  | .broken e => .error (.broken e)
  | .beyond => .error .beyond
  | .datum root => (ofValue root).mapError .schema

end Schema

end RpcBindings
