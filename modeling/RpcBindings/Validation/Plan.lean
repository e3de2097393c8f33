import RpcBindings.Noted
import RpcBindings.Schema.References
import RpcBindings.Validation.Notice
import RpcBindings.Validation.Step

/-!
# RpcBindings.Validation.Plan

The validation plans of a schema.  The steps of a field come in the order default, required,
allowed texts, elements, each at most once; a field without steps is left out of its plan.  A
default applies to whole numbers and texts only; any other is ignored with a notice.
-/

namespace RpcBindings

/-- A field with the steps that validate it. -/
structure FieldRules where
  field : Field
  steps : List Step

/-- The validation of a declared type or of the input of a method. -/
structure Plan where
  /-- The type that is validated. -/
  name : String
  fields : List FieldRules

namespace Plan

def steps (plan : Plan) : List Step :=
  plan.fields.flatMap (·.steps)

end Plan

/-- The plans of the declared types by their names. -/
abbrev Plans := List (String × Plan)

/-- Whether a required field of this kind is checked: a truth value is always present, and a
referenced value is checked where it is declared. -/
def Kind.isChecked : Kind → Bool
  | .bool | .reference => false
  | _ => true

namespace Schema

/-- The default that is substituted for a field. -/
def defaultOf (field : Field) : Option DefaultValue :=
  match field.type.kind, field.default with
  | .int, .int i => some (.int i)
  | .string, .text s => some (.text s)
  | _, _ => none

/-- The notice about a default that is not substituted. -/
def defaultNotice (owner : String) (field : Field) : Option Notice :=
  match field.default, defaultOf field with
  | .null, _ | _, some _ => none
  | default, none =>
    match field.type.kind with
    | .int | .string => some (.mismatchedDefault owner field.name default field.type.kind)
    | kind => some (.unsupportedDefault owner field.name kind)

/-- The step for the allowed texts of a text field. -/
def enumStep (field : Field) : List Step :=
  match field.type.kind, field.enum with
  | .string, some (first :: rest) => [.oneOf (first :: rest)]
  | _, _ => []

/-- The name of the type whose values an array field holds. -/
def elementTarget? (field : Field) : Option String :=
  match field.type with
  | .nested .array _ items => items.target?
  | _ => none

/-- The step for the elements of an array field. -/
def elementStep (schema : Schema) (owner : String) (field : Field) :
    Except UnresolvedReference (List Step) :=
  match elementTarget? field with
  | none => .ok []
  | some target => do
    let type ← schema.resolve (some s!"{owner}.{field.name}") target
    return [.elements type.name]

def fieldSteps (schema : Schema) (owner : String) (field : Field) :
    Except UnresolvedReference (List Step) := do
  let elements ← schema.elementStep owner field
  let defaults := (defaultOf field).toList.map Step.default
  let required := if field.required && field.type.kind.isChecked then [Step.required] else []
  return defaults ++ required ++ enumStep field ++ elements

/-- The rules of fields, those without steps left out, and the notices about their defaults. -/
def rulesOf (schema : Schema) (owner : String) :
    List Field → Noted Notice UnresolvedReference (List FieldRules)
  | [] => return []
  | field :: rest => do
    Noted.note (defaultNotice owner field).toList
    let steps ← Noted.lift (schema.fieldSteps owner field)
    let rules ← rulesOf schema owner rest
    return if steps.isEmpty then rules else ⟨field, steps⟩ :: rules

def planOf (schema : Schema) (name : String) (fields : List Field) :
    Noted Notice UnresolvedReference Plan := do
  let rules ← schema.rulesOf name fields
  return ⟨name, rules⟩

def plansOf (schema : Schema) : List ObjectType → Noted Notice UnresolvedReference Plans
  | [] => return []
  | type :: rest => do
    let plan ← schema.planOf type.name type.properties
    let plans ← plansOf schema rest
    return (type.name, plan) :: plans

/-- The plans of all declared types. -/
def typePlans (schema : Schema) : Noted Notice UnresolvedReference Plans :=
  schema.plansOf schema.types

/-- The plan for the input of a method. -/
def inputPlan (schema : Schema) (method : Method) : Noted Notice UnresolvedReference Plan :=
  schema.planOf (method.name ++ "_input") method.inputs

end Schema

end RpcBindings
