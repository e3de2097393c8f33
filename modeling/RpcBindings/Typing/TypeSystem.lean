import RpcBindings.Generation.Error

/-!
# RpcBindings.Typing.TypeSystem

Field types as type expressions of the target languages.  A primitive kind has one fixed type, an
array is the sequence of its items, a reference is the identifier of the declared type, and a field
that is not required is wrapped as optional.
-/

namespace RpcBindings

/-- The type vocabulary of a language. -/
structure TypeSystem where
  language : Language
  /-- The types of the primitive kinds. -/
  primitives : List (Kind × String)

namespace Language

/-- The types of the primitive kinds in a language. -/
def primitives : Language → List (Kind × String)
  | .go =>
    [(.string, "string"), (.int, "int64"), (.float, "float64"), (.bool, "bool"),
     (.timestamp, "time.Time"), (.object, "map[string]interface\x7b\x7d")]
  | .rust =>
    [(.string, "String"), (.int, "i64"), (.float, "f64"), (.bool, "bool"),
     (.timestamp, "DateTime<Utc>"), (.object, "HashMap<String, serde_json::Value>")]
  | .typescript =>
    [(.string, "string"), (.int, "number"), (.float, "number"), (.bool, "boolean"),
     (.timestamp, "Date"), (.object, "Record<string, any>")]
  | .ruby =>
    [(.string, "String"), (.int, "Integer"), (.float, "Float"), (.bool, "Boolean"),
     (.timestamp, "Time"), (.object, "Hash")]

def sequence (element : String) : Language → String
  | .go => "[]" ++ element
  | .rust => "Vec<" ++ element ++ ">"
  | .typescript => element ++ "[]"
  | .ruby => "Array<" ++ element ++ ">"

/-- The type that also admits an absent value.  In Go slices and maps admit it already. -/
def optional (kind : Kind) (type : String) : Language → String
  | .go => if kind == .array || kind == .object then type else "*" ++ type
  | .rust => "Option<" ++ type ++ ">"
  | .typescript => type ++ " | undefined"
  | .ruby => type ++ ", nil"

/-- The type vocabulary of a language. -/
def typeSystem (language : Language) : TypeSystem :=
  ⟨language, language.primitives⟩

end Language

namespace TypeSystem

/-- The vocabulary without some kinds. -/
def without (system : TypeSystem) (kinds : List Kind) : TypeSystem :=
  { system with primitives := system.primitives.filter fun (kind, _) => !kinds.contains kind }

def express (system : TypeSystem) (schema : Schema) (owner : Option String) :
    Descriptor → Except GenerationError String
  | d@(.plain kind target) =>
    match kind, target with
    | .reference, some target => named target
    | .reference, none | .array, _ => .error (.unhandled d system.language owner)
    | kind, _ => primitive d kind
  | d@(.nested kind target items) =>
    match kind, target with
    | .reference, some target => named target
    | .reference, none => .error (.unhandled d system.language owner)
    | .array, _ => do
      let element ← express system schema owner items
      return system.language.sequence element
    | kind, _ => primitive d kind
where
  /-- The identifier of a declared type. -/
  named (target : String) : Except GenerationError String :=
    match schema.resolve owner target with
    | .error e => .error (.unresolved e)
    | .ok type => (system.language.identifier .declaration type.name).mapError .naming
  /-- The type of a primitive kind. -/
  primitive (d : Descriptor) (kind : Kind) : Except GenerationError String :=
    match system.primitives.lookup kind with
    | some type => .ok type
    | none => .error (.unhandled d system.language owner)

/-- The place of a field in messages; an empty owner counts as none. -/
def placeOf (owner : Option String) (field : Field) : String :=
  match owner with
  | none | some "" => field.name
  | some owner => s!"{owner}.{field.name}"

def expressField (system : TypeSystem) (schema : Schema) (owner : Option String) (field : Field) :
    Except GenerationError String := do
  let type ← system.express schema (some (placeOf owner field)) field.type
  return if field.required then type else system.language.optional field.type.kind type

end TypeSystem

end RpcBindings
