import RpcBindings.Proofs.Schema.WellFormed
import RpcBindings.Proofs.Validation.Plans

/-!
# RpcBindings.Proofs.Schema.References

The references of a schema in the order in which they are checked, each with the
place that messages give.  The check succeeds when all of them lead to declared
types, and otherwise reports the first that does not.
-/

namespace RpcBindings

namespace Schema

variable {schema : Schema} {place : String} {d : Descriptor} {e : UnresolvedReference}

/-- The references of fields, each with the place of its field. -/
def referencesOf (placeOf : Field → String) (fields : List Field) : List (String × String) :=
  fields.flatMap fun field => field.type.targets.map fun target => (placeOf field, target)

/-- The references of a schema: those in the properties of its types, then method by
method those in the inputs before those in the outputs, and inside a field the outer
ones before the inner ones. -/
def references (schema : Schema) : List (String × String) :=
  (schema.types.flatMap fun type =>
    referencesOf (fun field => s!"{type.name}.{field.name}") type.properties) ++
  schema.methods.flatMap fun method =>
    referencesOf (fun field => s!"{method.name} input {field.name}") method.inputs ++
      referencesOf (fun field => s!"{method.name} output {field.name}") method.outputs

/-- Whether a reference leads to a declared type. -/
def IsDeclared (schema : Schema) (reference : String × String) : Prop :=
  (schema.findType? reference.2).isSome

instance : DecidablePred schema.IsDeclared :=
  fun reference => inferInstanceAs (Decidable ((schema.findType? reference.2).isSome = true))

/-- The references in the order of the fields that they stand in. -/
theorem references_eq_flatMap (schema : Schema) :
    schema.references =
      schema.ownedFields.flatMap fun entry => entry.2.type.targets.map fun target =>
        (entry.1, target) := by
  simp only [references, referencesOf, ownedFields, List.flatMap_append, List.flatMap_map,
    List.flatMap_assoc]

/-- Every reference of a schema is declared exactly where the schema resolves. -/
theorem forall_mem_references_iff :
    (∀ reference ∈ schema.references, schema.IsDeclared reference) ↔ schema.Resolves := by
  simp only [references_eq_flatMap, List.forall_mem_flatMap, List.forall_mem_map, Resolves,
    IsDeclared]

/-- What resolves in the schema resolves in each list of fields. -/
theorem Resolves.targets (h : schema.Resolves) :
    ∀ fields ∈ schema.fieldLists, ∀ field ∈ fields, ∀ target ∈ field.type.targets,
      (schema.findType? target).isSome :=
  (forall_fieldLists_iff (P := fun field =>
    ∀ target ∈ field.type.targets, (schema.findType? target).isSome)).2 h

/-! ## The first reference that leads nowhere -/

/-- What is reported of the first of some references that leads nowhere. -/
def report (schema : Schema) (references : List (String × String)) :
    Except UnresolvedReference Unit :=
  match references.find? fun reference => !decide (schema.IsDeclared reference) with
  | none => .ok ()
  | some (place, target) => .error ⟨some place, target⟩

/-- The first reference is reported unless it is declared. -/
theorem report_cons (reference : String × String) (rest : List (String × String)) :
    schema.report (reference :: rest) =
      if schema.IsDeclared reference then schema.report rest
      else .error ⟨some reference.1, reference.2⟩ := by
  unfold report
  rw [List.find?_cons]
  by_cases h : schema.IsDeclared reference
  · simp [h]
  · simp [h]

/-- The references before some others are reported first. -/
theorem report_append (references more : List (String × String)) :
    schema.report (references ++ more) =
      schema.report references >>= fun _ => schema.report more := by
  induction references with
  | nil => rfl
  | cons reference rest ih =>
      rw [List.cons_append, report_cons, report_cons, ih]
      split <;> rfl

/-- Resolving the references of a descriptor reports them from the outside inwards. -/
theorem resolveAll_eq_report :
    (schema.resolveAll (some place) d).map (fun _ => ()) =
      schema.report (d.targets.map fun target => (place, target)) := by
  unfold resolveAll
  induction d.targets with
  | nil => rfl
  | cons target rest ih =>
      rw [List.mapM_cons, List.map_cons, report_cons, ← ih]
      cases htype : schema.findType? target with
      | none =>
          have hnot : ¬schema.IsDeclared (place, target) := by simp [IsDeclared, htype]
          rw [if_neg hnot, resolve, htype]
          rfl
      | some type =>
          have hdeclared : schema.IsDeclared (place, target) := by simp [IsDeclared, htype]
          rw [if_pos hdeclared, resolve, htype]
          cases rest.mapM (schema.resolve (some place)) <;> rfl

/-- Checking owned fields reports on the targets of their types, in order. -/
theorem checkFields_eq_report (owned : List (String × Field)) :
    schema.checkFields owned =
      schema.report (owned.flatMap fun entry => entry.2.type.targets.map fun target =>
        (entry.1, target)) := by
  induction owned with
  | nil => rfl
  | cons entry rest ih =>
      obtain ⟨place, field⟩ := entry
      rw [checkFields, ih, List.flatMap_cons, report_append, ← resolveAll_eq_report]
      cases schema.resolveAll (some place) field.type <;> rfl

/-- The check of a schema reports on its references, in order. -/
theorem checkReferences_eq_report : schema.checkReferences = schema.report schema.references := by
  rw [checkReferences, checkFields_eq_report, references_eq_flatMap]

/-- The check reports the first reference that leads nowhere. -/
theorem checkReferences_eq_error_iff :
    schema.checkReferences = .error e ↔
      ∃ before place target after, schema.references = before ++ (place, target) :: after ∧
        (∀ reference ∈ before, schema.IsDeclared reference) ∧
        ¬schema.IsDeclared (place, target) ∧ e = ⟨some place, target⟩ := by
  rw [checkReferences_eq_report, report]
  cases hfind : schema.references.find? fun reference => !decide (schema.IsDeclared reference) with
  | none =>
      rw [List.find?_eq_none] at hfind
      simp only [reduceCtorEq, false_iff]
      rintro ⟨before, place, target, after, heq, -, hnot, -⟩
      exact hfind (place, target) (by simp [heq]) (by simpa using hnot)
  | some first =>
      obtain ⟨place, target⟩ := first
      have hfirst := hfind
      rw [List.find?_eq_some_iff_append] at hfind
      obtain ⟨hnot, before, after, heq, hbefore⟩ := hfind
      constructor
      · intro h
        refine ⟨before, place, target, after, heq, ?_, by simpa using hnot, ?_⟩
        · intro reference hmem
          simpa using hbefore reference hmem
        · exact (Except.error.inj h).symm
      · rintro ⟨before', place', target', after', heq', hbefore', hnot', rfl⟩
        -- What is split off at the first failure is what the search finds.
        have hsame : some (place', target') = some (place, target) := by
          rw [← hfirst, eq_comm, List.find?_eq_some_iff_append]
          refine ⟨by simpa using hnot', before', after', heq', ?_⟩
          intro reference hmem
          simpa using hbefore' reference hmem
        cases hsame
        rfl

theorem wellFormed_trees : trees.WellFormed where
  name := by decide
  description := by decide
  typeNames := trees.typeNames_nodup
  types := by
    intro type htype
    obtain rfl := List.mem_singleton.1 htype
    refine ⟨by decide, by decide, by decide, ?_⟩
    intro field hfield
    obtain rfl | hfield := List.mem_cons.1 hfield
    · exact ⟨by decide, by decide, Descriptor.wellFormed_primitive rfl⟩
    · obtain rfl := List.mem_singleton.1 hfield
      exact ⟨by decide, by decide, Descriptor.wellFormed_array
        (Descriptor.wellFormed_reference (by decide))⟩
  methodNames := trees.methodNames_nodup
  methods := by simp [trees]
  goTags := by simp [trees]

end Schema

end RpcBindings
