import RpcBindings.Schema.Basic

/-!
# RpcBindings.Schema.References

Following references by name.  A schema is checked as a whole: the first reference to a type that
it does not declare is reported, in the order of its types' properties, then method by method the
inputs before the outputs, and inside a field from the outermost descriptor inwards.
-/

namespace RpcBindings

/-- A reference to a type that the schema does not declare. -/
structure UnresolvedReference where
  /-- Where the reference stands, if known. -/
  owner : Option String
  target : String
deriving DecidableEq

/-- The wording of an unresolved reference; an empty place counts as none. -/
def UnresolvedReference.message (e : UnresolvedReference) : String :=
  match e.owner with
  | none | some "" => s!"Unresolved reference to type '{e.target}'"
  | some owner => s!"{owner}: unresolved reference to type '{e.target}'"

namespace Schema

/-- The type that a name refers to. -/
def resolve (schema : Schema) (owner : Option String) (target : String) :
    Except UnresolvedReference ObjectType :=
  match schema.findType? target with
  | some type => .ok type
  | none => .error ⟨owner, target⟩

/-- The types that a descriptor refers to along its chain. -/
def resolveAll (schema : Schema) (owner : Option String) (d : Descriptor) :
    Except UnresolvedReference (List ObjectType) :=
  d.targets.mapM (schema.resolve owner)

/-- All fields of a schema, each with the place that messages give. -/
def ownedFields (schema : Schema) : List (String × Field) :=
  (schema.types.flatMap fun type =>
    type.properties.map fun field => (s!"{type.name}.{field.name}", field)) ++
  schema.methods.flatMap fun method =>
    (method.inputs.map fun field => (s!"{method.name} input {field.name}", field)) ++
    method.outputs.map fun field => (s!"{method.name} output {field.name}", field)

/-- Resolves every reference of some owned fields. -/
def checkFields (schema : Schema) : List (String × Field) → Except UnresolvedReference Unit
  | [] => .ok ()
  | (owner, field) :: rest => do
    let _ ← schema.resolveAll (some owner) field.type
    checkFields schema rest

/-- Resolves every reference of the schema. -/
def checkReferences (schema : Schema) : Except UnresolvedReference Unit :=
  schema.checkFields schema.ownedFields

end Schema

end RpcBindings
