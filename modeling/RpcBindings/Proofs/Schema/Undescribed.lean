import RpcBindings.Proofs.Outcome
import RpcBindings.Source.Summary
import RpcBindings.Typing.TypeSystem
import RpcBindings.Validation.Plan

/-!
# RpcBindings.Proofs.Schema.Undescribed

Schemas without the descriptions of their types, methods and fields.  References, type
expressions and validation plans take no notice of a description: each of them gives
the same for the undescribed schema, up to the descriptions in what it gives, and fails
with the same error.
-/

namespace RpcBindings

/-! ## Erasing descriptions -/

def Field.undescribed (field : Field) : Field :=
  { field with description := "" }

def ObjectType.undescribed (type : ObjectType) : ObjectType :=
  { type with description := "", properties := type.properties.map Field.undescribed }

def Method.undescribed (method : Method) : Method :=
  { method with
    description := ""
    inputs := method.inputs.map Field.undescribed
    outputs := method.outputs.map Field.undescribed }

theorem Method.undescribed_undescribed (method : Method) :
    method.undescribed.undescribed = method.undescribed := by
  have hfield (field : Field) : field.undescribed.undescribed = field.undescribed := rfl
  simp [undescribed, hfield]

/-- The schema without the descriptions of its types, methods and fields.  Two schemas
that agree in it differ by a replacement of these descriptions. -/
def Schema.undescribed (schema : Schema) : Schema :=
  { schema with
    types := schema.types.map ObjectType.undescribed
    methods := schema.methods.map Method.undescribed
    typeNames_nodup := by
      rw [List.map_map]
      exact schema.typeNames_nodup
    methodNames_nodup := by
      rw [List.map_map]
      exact schema.methodNames_nodup }

def FieldRules.undescribed (rules : FieldRules) : FieldRules :=
  { rules with field := rules.field.undescribed }

def Plan.undescribed (plan : Plan) : Plan :=
  { plan with fields := plan.fields.map FieldRules.undescribed }

theorem Plan.undescribed_undescribed (plan : Plan) :
    plan.undescribed.undescribed = plan.undescribed := by
  have hrules (rules : FieldRules) : rules.undescribed.undescribed = rules.undescribed := rfl
  simp [undescribed, hrules]

def Plans.undescribed (plans : Plans) : Plans :=
  plans.map fun (name, plan) => (name, plan.undescribed)

/-- A plan is found under the same name without its descriptions. -/
theorem Plans.lookup_undescribed (plans : Plans) (name : String) :
    plans.undescribed.lookup name = (plans.lookup name).map Plan.undescribed := by
  rw [undescribed]
  induction plans with
  | nil => rfl
  | cons entry rest ih =>
      rw [List.map_cons, List.lookup_cons, List.lookup_cons, ih]
      split <;> rfl

/-! ## References and types -/

namespace Schema

variable {schema : Schema}

/-- The kinds that a schema uses do not depend on its descriptions. -/
theorem usesKind_undescribed (schema : Schema) (kind : Kind) :
    schema.undescribed.usesKind kind = schema.usesKind kind := by
  simp [usesKind, fieldLists, undescribed, ObjectType.undescribed, Method.undescribed,
    Field.undescribed, List.any_flatMap, Function.comp_def]

/-- A reference finds the same type without its descriptions. -/
theorem resolve_undescribed (schema : Schema) (owner : Option String) (target : String) :
    schema.undescribed.resolve owner target =
      (schema.resolve owner target).map ObjectType.undescribed := by
  have hfind : schema.undescribed.findType? target =
      (schema.findType? target).map ObjectType.undescribed := by
    rw [findType?, undescribed, List.find?_map]
    rfl
  rw [resolve, resolve, hfind]
  cases schema.findType? target <;> rfl

/-- The check of references does not depend on descriptions. -/
theorem checkReferences_undescribed (schema : Schema) :
    schema.undescribed.checkReferences = schema.checkReferences := by
  have hfields (owned : List (String × Field)) :
      schema.undescribed.checkFields (owned.map fun (owner, field) => (owner, field.undescribed)) =
        schema.checkFields owned := by
    induction owned with
    | nil => rfl
    | cons entry rest ih =>
        have hall : schema.undescribed.resolveAll (some entry.1) entry.2.undescribed.type =
            (schema.resolveAll (some entry.1) entry.2.type).map
              (List.map ObjectType.undescribed) := by
          rw [resolveAll, resolveAll, ← mapM_map]
          simp only [← resolve_undescribed]
          rfl
        rw [List.map_cons, checkFields, checkFields, hall, bind_map, ih]
  have howned : schema.undescribed.ownedFields =
      schema.ownedFields.map fun (owner, field) => (owner, field.undescribed) := by
    simp [ownedFields, undescribed, ObjectType.undescribed, Method.undescribed,
      Field.undescribed, List.flatMap_map, List.map_flatMap, Function.comp_def]
  rw [checkReferences, howned, hfields, checkReferences]

end Schema

namespace TypeSystem

variable {system : TypeSystem} {schema : Schema} {owner : Option String}

/-- The type expression of a descriptor does not depend on descriptions. -/
theorem express_undescribed (system : TypeSystem) (schema : Schema) (owner : Option String)
    (d : Descriptor) :
    system.express schema.undescribed owner d = system.express schema owner d := by
  have hnamed (target : String) : express.named system schema.undescribed owner target =
      express.named system schema owner target := by
    rw [express.named, express.named, Schema.resolve_undescribed]
    cases schema.resolve owner target <;> rfl
  induction d with
  | plain kind target => simp only [express, hnamed]
  | nested kind target items ih => simp only [express, hnamed, ih]

/-- The type expression of a field does not depend on descriptions. -/
theorem expressField_undescribed (system : TypeSystem) (schema : Schema) (owner : Option String)
    (field : Field) :
    system.expressField schema.undescribed owner field.undescribed =
      system.expressField schema owner field := by
  have hplace : placeOf owner field.undescribed = placeOf owner field := rfl
  rw [expressField, expressField, hplace, express_undescribed]
  rfl

end TypeSystem

/-! ## Plans -/

namespace Schema

/-- The steps of a field do not depend on descriptions. -/
theorem fieldSteps_undescribed (schema : Schema) (owner : String) (field : Field) :
    schema.undescribed.fieldSteps owner field.undescribed = schema.fieldSteps owner field := by
  have helements : schema.undescribed.elementStep owner field.undescribed =
      schema.elementStep owner field := by
    have htarget : elementTarget? field.undescribed = elementTarget? field := rfl
    rw [elementStep, elementStep, htarget]
    cases elementTarget? field with
    | none => rfl
    | some target =>
        simp only [resolve_undescribed]
        cases hresolve : schema.resolve (some s!"{owner}.{field.name}") target with
        | error e => simp [Field.undescribed, hresolve, Except.map]
        | ok type => simp [Field.undescribed, hresolve, Except.map, ObjectType.undescribed]
  rw [fieldSteps, fieldSteps, helements]
  rfl

/-- The rules of fields are the same without descriptions, but for the descriptions they carry. -/
theorem rulesOf_undescribed (schema : Schema) (owner : String) (fields : List Field) :
    (schema.undescribed.rulesOf owner (fields.map Field.undescribed)).outcome =
      (schema.rulesOf owner fields).outcome.map (List.map FieldRules.undescribed) := by
  induction fields with
  | nil => rfl
  | cons field rest ih =>
      simp only [List.map_cons, rulesOf, Noted.outcome_bind, Noted.outcome_note,
        Noted.outcome_lift, Noted.outcome_pure, ih, fieldSteps_undescribed, ok_bind, map_bind,
        bind_map]
      congr! 3 with steps rules
      split <;> rfl

/-- A plan is the same without descriptions, but for those it carries. -/
theorem planOf_undescribed (schema : Schema) (name : String) (fields : List Field) :
    (schema.undescribed.planOf name (fields.map Field.undescribed)).outcome =
      (schema.planOf name fields).outcome.map Plan.undescribed := by
  simp only [planOf, Noted.outcome_bind, Noted.outcome_pure, rulesOf_undescribed, map_bind,
    bind_map]
  rfl

theorem inputPlan_undescribed (schema : Schema) (method : Method) :
    (schema.undescribed.inputPlan method.undescribed).outcome =
      (schema.inputPlan method).outcome.map Plan.undescribed :=
  planOf_undescribed schema _ method.inputs

/-- The plans of the types are the same without descriptions, but for those they carry. -/
theorem typePlans_undescribed (schema : Schema) :
    schema.undescribed.typePlans.outcome = schema.typePlans.outcome.map Plans.undescribed := by
  have hplans (types : List ObjectType) :
      (schema.undescribed.plansOf (types.map ObjectType.undescribed)).outcome =
        (schema.plansOf types).outcome.map Plans.undescribed := by
    induction types with
    | nil => rfl
    | cons type rest ih =>
        have hplan : (schema.undescribed.planOf type.name
            (type.properties.map Field.undescribed)).outcome = _ := planOf_undescribed schema _ _
        simp only [List.map_cons, plansOf, Noted.outcome_bind, Noted.outcome_pure, ih,
          ObjectType.undescribed, hplan, map_bind, bind_map]
        rfl
  exact hplans schema.types

end Schema

end RpcBindings
