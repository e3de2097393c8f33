import RpcBindings.Schema.Descriptor
import RpcBindings.Value.Basic

/-!
# RpcBindings.Schema.Basic

A schema: the types it declares and the methods it offers, in the order in which it declares them.
Type names are distinct, and so are method names; this is part of the type.
-/

namespace RpcBindings

/-- A named member of a type, or of the input or output of a method. -/
structure Field where
  name : String
  type : Descriptor
  description : String
  required : Bool
  /-- The declared default; null stands for none. -/
  default : Value
  /-- The allowed texts, if they are restricted. -/
  enum : Option (List String)

/-- A declared type. -/
structure ObjectType where
  name : String
  description : String
  properties : List Field

/-- A remote operation. -/
structure Method where
  name : String
  description : String
  inputs : List Field
  outputs : List Field

/-- The types and methods of an interface. -/
structure Schema where
  name : String
  description : String
  types : List ObjectType
  methods : List Method
  /-- The tags written for each field in Go. -/
  goTags : List String
  typeNames_nodup : (types.map (·.name)).Nodup
  methodNames_nodup : (methods.map (·.name)).Nodup

/-- The first member of a list that occurs among the members before it or in `seen`. -/
def firstRepeated? (seen : List String) : List String → Option String
  | [] => none
  | name :: rest =>
    if seen.contains name then some name else firstRepeated? (name :: seen) rest

/-- A list without a repeated member has distinct members, and none of those seen before. -/
theorem nodup_of_firstRepeated?_eq_none {seen names : List String}
    (h : firstRepeated? seen names = none) :
    names.Nodup ∧ ∀ name ∈ names, name ∉ seen := by
  induction names generalizing seen with
  | nil => simp
  | cons name rest ih =>
    rw [firstRepeated?] at h
    split at h
    · simp at h
    · rename_i hseen
      obtain ⟨hrest, hout⟩ := ih h
      have hname : name ∉ seen := by simpa using hseen
      refine ⟨List.nodup_cons.2 ⟨fun hmem => ?_, hrest⟩, ?_⟩
      · exact hout name hmem (by simp)
      · intro other hother
        rcases List.mem_cons.1 hother with rfl | hmem
        · exact hname
        · exact fun hs => hout other hmem (by simp [hs])

namespace Schema

/-- The declared type of a name. -/
def findType? (schema : Schema) (name : String) : Option ObjectType :=
  schema.types.find? (·.name == name)

/-- The field lists of a schema: the properties of each type, then the inputs and outputs of each
method. -/
def fieldLists (schema : Schema) : List (List Field) :=
  schema.types.map (·.properties) ++ schema.methods.flatMap fun m => [m.inputs, m.outputs]

/-- Whether some field of the schema mentions a kind. -/
def usesKind (schema : Schema) (kind : Kind) : Bool :=
  schema.fieldLists.any fun fields => fields.any (·.type.mentions kind)

end Schema

end RpcBindings
