import RpcBindings.Text.Quoted

/-!
# RpcBindings.Schema.Descriptor

The types of fields.  A descriptor is a chain: its own kind, with the name of a declared type where
it refers to one, and for a collection the descriptor of the items.  The chain is the whole
structure, so what is said of "every descriptor met along the items" is said of its layers.
-/

namespace RpcBindings

/-- The kinds of types. -/
inductive Kind where
  | string
  | int
  | float
  | bool
  | timestamp
  | object
  | array
  | reference
deriving DecidableEq, Inhabited

namespace Kind

/-- All kinds. -/
def all : List Kind := [.string, .int, .float, .bool, .timestamp, .object, .array, .reference]

/-- A kind as a schema document writes it. -/
def name : Kind → String
  | .string => "string"
  | .int => "int"
  | .float => "float"
  | .bool => "bool"
  | .timestamp => "timestamp"
  | .object => "object"
  | .array => "array"
  | .reference => "reference"

/-- A kind as messages show it. -/
def display (kind : Kind) : String :=
  "<TypeKind." ++ String.ofList (kind.name.toList.map Char.toUpper) ++ ": '" ++ kind.name ++ "'>"

/-- The kind that a schema document means by a type name; a reference is written otherwise. -/
def ofName? (name : String) : Option Kind :=
  all.find? fun kind => kind != .reference && kind.name == name

/-- The kinds that stand for themselves: neither arrays nor references. -/
def isPrimitive : Kind → Bool
  | .array | .reference => false
  | _ => true

end Kind

/-- The type of a field or of the items of an array. -/
inductive Descriptor where
  /-- A type without items. -/
  | plain (kind : Kind) (target : Option String)
  /-- A type with items. -/
  | nested (kind : Kind) (target : Option String) (items : Descriptor)
deriving DecidableEq, Inhabited

namespace Descriptor

/-- A type that is neither an array nor a reference. -/
def primitive (kind : Kind) : Descriptor := .plain kind none

/-- A type declared under a name. -/
def reference (target : String) : Descriptor := .plain .reference (some target)

/-- An array of items. -/
def array (items : Descriptor) : Descriptor := .nested .array none items

def kind : Descriptor → Kind
  | .plain kind _ | .nested kind _ _ => kind

/-- The name of the declared type that the descriptor itself refers to. -/
def target? : Descriptor → Option String
  | .plain _ target | .nested _ target _ => target

/-- The type of the items. -/
def items? : Descriptor → Option Descriptor
  | .plain _ _ => none
  | .nested _ _ items => some items

/-- The kinds and targets along the chain, the outermost first. -/
def layers : Descriptor → List (Kind × Option String)
  | .plain kind target => [(kind, target)]
  | .nested kind target items => (kind, target) :: items.layers

/-- The names of the declared types that are referred to along the chain, the outermost first. -/
def targets (d : Descriptor) : List String :=
  d.layers.filterMap (·.2)

@[simp] theorem targets_plain (kind : Kind) (target : Option String) :
    targets (.plain kind target) = target.toList := by
  cases target <;> rfl

@[simp] theorem targets_nested (kind : Kind) (target : Option String) (items : Descriptor) :
    targets (.nested kind target items) = target.toList ++ items.targets := by
  cases target <;> simp [targets, layers]

/-- Whether a kind occurs along the chain. -/
def mentions (kind : Kind) (d : Descriptor) : Bool :=
  d.layers.any (·.1 == kind)

/-- Whether the descriptor is a reference that has a target. -/
def isReference (d : Descriptor) : Bool :=
  d.kind == .reference && d.target?.isSome

/-- A target as messages show it. -/
def displayTarget : Option String → String
  | none => "None"
  | some target => "TypeReference(target=" ++ Text.quoted target ++ ")"

/-- A descriptor as messages show it. -/
def display : Descriptor → String
  | .plain kind target =>
    s!"TypeDescriptor(kind={kind.display}, reference={displayTarget target}, items=None)"
  | .nested kind target items =>
    s!"TypeDescriptor(kind={kind.display}, reference={displayTarget target}, " ++
      s!"items={items.display})"

end Descriptor

end RpcBindings
