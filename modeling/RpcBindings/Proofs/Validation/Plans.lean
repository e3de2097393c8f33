import RpcBindings.Proofs.Outcome
import RpcBindings.Validation.Plan

/-!
# RpcBindings.Proofs.Validation.Plans

What the plans of a schema consist of.  The rules of a plan stand for fields of
the declaration in their order, each with the steps that the field has; a field
without steps has no rules.  Every declared type has its plan under its name,
and plans are made whenever the references of the schema lead somewhere.
-/

namespace RpcBindings

namespace Schema

variable {schema : Schema} {owner : String} {field : Field} {fields : List Field}
  {steps : List Step} {rules : List FieldRules}

/-! ## References -/

/-- Every reference along the chain of every field names a declared type. -/
def Resolves (schema : Schema) : Prop :=
  ∀ entry ∈ schema.ownedFields, ∀ target ∈ entry.2.type.targets,
    (schema.findType? target).isSome

/-- A type that is found is one of the schema, under its own name. -/
theorem mem_types_of_findType? {target : String} {type : ObjectType}
    (h : schema.findType? target = some type) : type ∈ schema.types ∧ type.name = target :=
  ⟨List.mem_of_find?_eq_some h, by simpa using List.find?_some h⟩

/-- A reference resolves exactly to the type that is found under its target. -/
theorem resolve_eq_ok_iff {place : Option String} {target : String} {type : ObjectType} :
    schema.resolve place target = .ok type ↔ schema.findType? target = some type := by
  unfold resolve
  cases schema.findType? target <;> simp

/-- All references of a descriptor are resolved if each of them can be. -/
theorem resolveAll_isOk_iff {place : Option String} {d : Descriptor} :
    (∃ types, schema.resolveAll place d = .ok types) ↔
      ∀ target ∈ d.targets, (schema.findType? target).isSome := by
  unfold resolveAll
  induction d.targets with
  | nil => simp
  | cons target rest ih =>
      rw [List.mapM_cons, List.forall_mem_cons, ← ih]
      simp only [bind_eq_ok_iff, pure_eq_ok, Except.ok.injEq, resolve_eq_ok_iff,
        Option.isSome_iff_exists]
      constructor
      · rintro ⟨types, type, htype, more, hmore, rfl⟩
        exact ⟨⟨type, htype⟩, more, hmore⟩
      · rintro ⟨⟨type, htype⟩, more, hmore⟩
        exact ⟨type :: more, type, htype, more, hmore, rfl⟩

/-- Fields pass the check exactly where every target of their types is declared. -/
theorem checkFields_eq_ok_iff {owned : List (String × Field)} :
    schema.checkFields owned = .ok () ↔
      ∀ entry ∈ owned, ∀ target ∈ entry.2.type.targets, (schema.findType? target).isSome := by
  induction owned with
  | nil => simp [checkFields]
  | cons entry rest ih =>
      obtain ⟨place, field⟩ := entry
      rw [checkFields, List.forall_mem_cons, ← ih, ← resolveAll_isOk_iff, bind_eq_ok_iff]
      constructor
      · rintro ⟨types, htypes, hrest⟩
        exact ⟨⟨types, htypes⟩, hrest⟩
      · rintro ⟨⟨types, htypes⟩, hrest⟩
        exact ⟨types, htypes, hrest⟩

/-- The check of references accepts exactly the schemas all of whose references resolve. -/
theorem checkReferences_eq_ok_iff : schema.checkReferences = .ok () ↔ schema.Resolves :=
  checkFields_eq_ok_iff

/-! ## The steps of a field -/

/-- The declared type whose values an array field holds. -/
def elementType? (schema : Schema) (field : Field) : Option ObjectType :=
  (elementTarget? field).bind schema.findType?

/-- Only an array has an element type. -/
theorem kind_of_elementType? {type : ObjectType} (h : schema.elementType? field = some type) :
    field.type.kind = .array := by
  obtain ⟨target, htarget, -⟩ := Option.bind_eq_some_iff.1 h
  unfold elementTarget? at htarget
  split at htarget
  · next heq => rw [heq, Descriptor.kind]
  · contradiction

/-- The step for the elements is there just for an array of a declared type. -/
theorem elementStep_eq_ok_iff :
    schema.elementStep owner field = .ok steps ↔
      (elementTarget? field = none ∧ steps = []) ∨
        ∃ type, schema.elementType? field = some type ∧ steps = [.elements type.name] := by
  unfold elementStep elementType?
  cases elementTarget? field with
  | none => simp [eq_comm]
  | some target =>
      simp only [bind_eq_ok_iff, resolve_eq_ok_iff, pure_eq_ok, Except.ok.injEq, Option.bind_some,
        reduceCtorEq, false_and, false_or]
      constructor
      · rintro ⟨type, htype, rfl⟩
        exact ⟨type, htype, rfl⟩
      · rintro ⟨type, htype, rfl⟩
        exact ⟨type, htype, rfl⟩

/-- The steps of a field that do not look into its value. -/
def ownSteps (field : Field) : List Step :=
  (defaultOf field).toList.map Step.default ++
    (if field.required && field.type.kind.isChecked then [Step.required] else []) ++ enumStep field

/-- The steps of the field itself do not descend. -/
theorem elements_notMem_ownSteps {target : String} : .elements target ∉ ownSteps field := by
  have henum : .elements target ∉ enumStep field := by
    unfold enumStep
    split <;> simp
  cases hdefault : defaultOf field <;> simp [ownSteps, hdefault, henum]

/-- The steps of a field are its own and the one for its elements. -/
theorem fieldSteps_eq_ok_iff :
    schema.fieldSteps owner field = .ok steps ↔
      ∃ elements, schema.elementStep owner field = .ok elements ∧
        steps = ownSteps field ++ elements := by
  unfold fieldSteps ownSteps
  simp only [bind_eq_ok_iff, pure_eq_ok, Except.ok.injEq]
  constructor
  · rintro ⟨elements, h, rfl⟩
    exact ⟨elements, h, rfl⟩
  · rintro ⟨elements, h, rfl⟩
    exact ⟨elements, h, rfl⟩

/-- Only the step for the elements depends on what the schema declares. -/
theorem mem_fieldSteps_iff_mem_ownSteps (h : schema.fieldSteps owner field = .ok steps)
    {step : Step} (hstep : ∀ target, step ≠ .elements target) :
    step ∈ steps ↔ step ∈ ownSteps field := by
  obtain ⟨elements, helements, rfl⟩ := fieldSteps_eq_ok_iff.1 h
  have hlast : step ∉ elements := by
    obtain ⟨-, rfl⟩ | ⟨type, -, rfl⟩ := elementStep_eq_ok_iff.1 helements
    · exact List.not_mem_nil
    · simpa using hstep type.name
  rw [List.mem_append, or_iff_left hlast]

/-- The default of a field has its step. -/
theorem default_mem_fieldSteps_iff (h : schema.fieldSteps owner field = .ok steps)
    {d : DefaultValue} : .default d ∈ steps ↔ defaultOf field = some d := by
  have henum : .default d ∉ enumStep field := by
    unfold enumStep
    split <;> simp
  rw [mem_fieldSteps_iff_mem_ownSteps h (by simp)]
  cases hdefault : defaultOf field with
  | none => simp [ownSteps, hdefault, henum]
  | some own => simp [ownSteps, hdefault, henum, @eq_comm _ d]

/-- The elements of a field have a step if their type is declared. -/
theorem elements_mem_fieldSteps_iff (h : schema.fieldSteps owner field = .ok steps)
    {target : String} :
    .elements target ∈ steps ↔
      ∃ type, schema.elementType? field = some type ∧ target = type.name := by
  obtain ⟨elements, helements, rfl⟩ := fieldSteps_eq_ok_iff.1 h
  rw [List.mem_append, or_iff_right elements_notMem_ownSteps]
  obtain ⟨htarget, rfl⟩ | ⟨type, htype, rfl⟩ := elementStep_eq_ok_iff.1 helements
  · simp [elementType?, htarget]
  · simp [htype]

/-- A step that a field may have: its default, or a check for its presence if its kind
is checked. -/
def Suits (field : Field) : Step → Prop
  | .default d => defaultOf field = some d
  | .required => field.type.kind.isChecked = true
  | .oneOf _ | .elements _ => True

/-- Every step of a field suits it. -/
theorem suits_of_fieldSteps (h : schema.fieldSteps owner field = .ok steps) :
    ∀ step ∈ steps, Suits field step := by
  obtain ⟨elements, helements, rfl⟩ := fieldSteps_eq_ok_iff.1 h
  simp only [ownSteps, List.forall_mem_append]
  refine ⟨⟨⟨?_, ?_⟩, ?_⟩, ?_⟩
  · cases hdefault : defaultOf field <;> simp [Suits, hdefault]
  · split
    · next hrequired =>
      rw [Bool.and_eq_true] at hrequired
      simp [Suits, hrequired.2]
    · simp
  · unfold enumStep
    split <;> simp [Suits]
  · obtain ⟨-, rfl⟩ | ⟨type, -, rfl⟩ := elementStep_eq_ok_iff.1 helements <;> simp [Suits]

/-- An array of a declared type refers to that type. -/
theorem mem_targets_of_elementTarget? {target : String} (h : elementTarget? field = some target) :
    target ∈ field.type.targets := by
  unfold elementTarget? at h
  split at h
  · next own items htype =>
    have hmem : target ∈ items.targets := by
      cases items with
      | plain kind own => simp only [Descriptor.target?] at h; simp [h]
      | nested kind own items => simp only [Descriptor.target?] at h; simp [h]
    rw [htype, Descriptor.targets_nested]
    exact List.mem_append_right _ hmem
  · contradiction

/-- The steps of a field whose references resolve are found. -/
theorem fieldSteps_isOk (owner : String)
    (h : ∀ target ∈ field.type.targets, (schema.findType? target).isSome) :
    ∃ steps, schema.fieldSteps owner field = .ok steps := by
  have helements : ∃ elements, schema.elementStep owner field = .ok elements := by
    simp only [elementStep_eq_ok_iff]
    cases htarget : elementTarget? field with
    | none => exact ⟨[], .inl ⟨rfl, rfl⟩⟩
    | some target =>
        obtain ⟨type, htype⟩ :=
          Option.isSome_iff_exists.1 (h target (mem_targets_of_elementTarget? htarget))
        exact ⟨[.elements type.name], .inr ⟨type, by simp [elementType?, htarget, htype], rfl⟩⟩
  obtain ⟨elements, helements⟩ := helements
  exact ⟨_, fieldSteps_eq_ok_iff.2 ⟨elements, helements, rfl⟩⟩

/-! ## The rules of a field list -/

/-- The rules of fields are those of the first one, unless it has no steps, and of the rest. -/
theorem rulesOf_cons_eq_ok_iff :
    (schema.rulesOf owner (field :: fields)).outcome = .ok rules ↔
      ∃ steps, schema.fieldSteps owner field = .ok steps ∧
        ∃ more, (schema.rulesOf owner fields).outcome = .ok more ∧
          rules = if steps.isEmpty then more else ⟨field, steps⟩ :: more := by
  rw [rulesOf]
  simp only [Noted.outcome_bind, Noted.outcome_note, ok_bind, Noted.outcome_lift, bind_eq_ok_iff,
    Noted.outcome_pure, Except.ok.injEq]
  constructor
  · rintro ⟨steps, hsteps, more, hmore, rfl⟩
    exact ⟨steps, hsteps, more, hmore, rfl⟩
  · rintro ⟨steps, hsteps, more, hmore, rfl⟩
    exact ⟨steps, hsteps, more, hmore, rfl⟩

/-- Rules hold the steps of their fields. -/
theorem fieldSteps_of_mem_rulesOf (h : (schema.rulesOf owner fields).outcome = .ok rules)
    {r : FieldRules} (hr : r ∈ rules) : schema.fieldSteps owner r.field = .ok r.steps := by
  induction fields generalizing rules with
  | nil =>
      have hnil : rules = [] := by simpa [rulesOf, eq_comm] using h
      simp [hnil] at hr
  | cons field fields ih =>
      obtain ⟨steps, hsteps, more, hmore, rfl⟩ := rulesOf_cons_eq_ok_iff.1 h
      split at hr
      · exact ih hmore hr
      · obtain rfl | hr := List.mem_cons.1 hr
        · exact hsteps
        · exact ih hmore hr

/-- Rules stand in the order of their fields, and no field has two. -/
theorem rulesOf_sublist (h : (schema.rulesOf owner fields).outcome = .ok rules) :
    (rules.map (·.field)).Sublist fields := by
  induction fields generalizing rules with
  | nil =>
      have hnil : rules = [] := by simpa [rulesOf, eq_comm] using h
      simp [hnil]
  | cons field fields ih =>
      obtain ⟨steps, hsteps, more, hmore, rfl⟩ := rulesOf_cons_eq_ok_iff.1 h
      split
      · exact (ih hmore).cons field
      · exact (ih hmore).cons_cons field

/-- A field that has steps has rules. -/
theorem mem_rulesOf (h : (schema.rulesOf owner fields).outcome = .ok rules)
    (hfield : field ∈ fields) :
    ∃ steps, schema.fieldSteps owner field = .ok steps ∧
      (steps = [] ∨ ⟨field, steps⟩ ∈ rules) := by
  induction fields generalizing rules with
  | nil => simp at hfield
  | cons first fields ih =>
      obtain ⟨steps, hsteps, more, hmore, rfl⟩ := rulesOf_cons_eq_ok_iff.1 h
      obtain rfl | hfield := List.mem_cons.1 hfield
      · refine ⟨steps, hsteps, ?_⟩
        cases steps with
        | nil => exact .inl rfl
        | cons step rest => exact .inr (by simp)
      · obtain ⟨steps', hsteps', hmem⟩ := ih hmore hfield
        refine ⟨steps', hsteps', hmem.imp_right fun hmem => ?_⟩
        split
        · exact hmem
        · exact List.mem_cons_of_mem _ hmem

/-- What holds of no steps holds of all rules just if it holds of the steps of all fields. -/
theorem forall_mem_rulesOf_iff (h : (schema.rulesOf owner fields).outcome = .ok rules)
    {P : Field → List Step → Prop} (hnil : ∀ field, P field []) :
    (∀ r ∈ rules, P r.field r.steps) ↔
      ∀ field ∈ fields, ∀ steps, schema.fieldSteps owner field = .ok steps → P field steps := by
  constructor
  · intro hall field hfield steps hsteps
    obtain ⟨steps', hsteps', hmem⟩ := mem_rulesOf h hfield
    obtain rfl : steps = steps' := Except.ok.inj (hsteps.symm.trans hsteps')
    obtain rfl | hmem := hmem
    · exact hnil field
    · exact hall _ hmem
  · intro hall r hr
    have hfield := (rulesOf_sublist h).subset (List.mem_map_of_mem hr)
    exact hall r.field hfield r.steps (fieldSteps_of_mem_rulesOf h hr)

/-- Fields whose targets are declared have rules. -/
theorem rulesOf_isOk (owner : String)
    (h : ∀ field ∈ fields, ∀ target ∈ field.type.targets, (schema.findType? target).isSome) :
    ∃ rules, (schema.rulesOf owner fields).outcome = .ok rules := by
  induction fields with
  | nil => exact ⟨[], rfl⟩
  | cons field fields ih =>
      rw [List.forall_mem_cons] at h
      obtain ⟨steps, hsteps⟩ := fieldSteps_isOk owner h.1
      obtain ⟨more, hmore⟩ := ih h.2
      exact ⟨_, rulesOf_cons_eq_ok_iff.2 ⟨steps, hsteps, more, hmore, rfl⟩⟩

/-! ## The plans of a schema -/

variable {name : String} {type : ObjectType} {types : List ObjectType} {plan : Plan} {plans : Plans}

theorem planOf_eq_ok_iff :
    (schema.planOf name fields).outcome = .ok plan ↔
      ∃ rules, (schema.rulesOf name fields).outcome = .ok rules ∧ plan = ⟨name, rules⟩ := by
  rw [planOf]
  simp only [Noted.outcome_bind, Noted.outcome_pure, bind_eq_ok_iff, Except.ok.injEq]
  constructor
  · rintro ⟨rules, hrules, rfl⟩
    exact ⟨rules, hrules, rfl⟩
  · rintro ⟨rules, hrules, rfl⟩
    exact ⟨rules, hrules, rfl⟩

theorem plansOf_cons_eq_ok_iff :
    (schema.plansOf (type :: types)).outcome = .ok plans ↔
      ∃ plan, (schema.planOf type.name type.properties).outcome = .ok plan ∧
        ∃ more, (schema.plansOf types).outcome = .ok more ∧ plans = (type.name, plan) :: more := by
  rw [plansOf]
  simp only [Noted.outcome_bind, Noted.outcome_pure, bind_eq_ok_iff, Except.ok.injEq]
  constructor
  · rintro ⟨plan, hplan, more, hmore, rfl⟩
    exact ⟨plan, hplan, more, hmore, rfl⟩
  · rintro ⟨plan, hplan, more, hmore, rfl⟩
    exact ⟨plan, hplan, more, hmore, rfl⟩

/-- Types with distinct names are found with their plans. -/
theorem lookup_plansOf (hnames : (types.map (·.name)).Nodup)
    (h : (schema.plansOf types).outcome = .ok plans) (htype : type ∈ types) :
    ∃ plan, plans.lookup type.name = some plan ∧
      (schema.planOf type.name type.properties).outcome = .ok plan := by
  induction types generalizing plans with
  | nil => simp at htype
  | cons first types ih =>
      obtain ⟨plan, hplan, more, hmore, rfl⟩ := plansOf_cons_eq_ok_iff.1 h
      rw [List.map_cons, List.nodup_cons] at hnames
      obtain rfl | htype := List.mem_cons.1 htype
      · exact ⟨plan, by simp, hplan⟩
      · have hne : type.name ≠ first.name := by
          intro heq
          exact hnames.1 (heq ▸ List.mem_map_of_mem htype)
        obtain ⟨found, hfound, hof⟩ := ih hnames.2 hmore htype
        refine ⟨found, ?_, hof⟩
        rw [List.lookup_cons, beq_eq_false_iff_ne.2 hne]
        exact hfound

/-- **Every declared type has its plan under its name.** -/
theorem lookup_typePlans (h : schema.typePlans.outcome = .ok plans) (htype : type ∈ schema.types) :
    ∃ rules, plans.lookup type.name = some ⟨type.name, rules⟩ ∧
      (schema.rulesOf type.name type.properties).outcome = .ok rules := by
  obtain ⟨plan, hplan, hof⟩ := lookup_plansOf schema.typeNames_nodup h htype
  obtain ⟨rules, hrules, rfl⟩ := planOf_eq_ok_iff.1 hof
  exact ⟨rules, hplan, hrules⟩

/-- A plan for one of the types of a schema or for the input of one of its methods. -/
def HasPlan (schema : Schema) (plan : Plan) : Prop :=
  (∃ type ∈ schema.types, (schema.planOf type.name type.properties).outcome = .ok plan) ∨
    ∃ method ∈ schema.methods, (schema.inputPlan method).outcome = .ok plan

/-- The plan of a type or an input consists of the rules of a field list of the schema. -/
theorem HasPlan.rulesOf (h : schema.HasPlan plan) :
    ∃ owner, ∃ fields ∈ schema.fieldLists,
      (schema.rulesOf owner fields).outcome = .ok plan.fields := by
  simp only [HasPlan, inputPlan, planOf_eq_ok_iff] at h
  simp only [fieldLists, List.mem_append, List.mem_map, List.mem_flatMap]
  obtain ⟨type, htype, rules, hrules, rfl⟩ | ⟨method, hmethod, rules, hrules, rfl⟩ := h
  · exact ⟨_, _, .inl ⟨type, htype, rfl⟩, hrules⟩
  · exact ⟨_, _, .inr ⟨method, hmethod, by simp⟩, hrules⟩

/-- Every plan of a list is the plan of one of its types. -/
theorem planOf_of_mem_plansOf (h : (schema.plansOf types).outcome = .ok plans)
    (hplan : (name, plan) ∈ plans) :
    ∃ type ∈ types, (schema.planOf type.name type.properties).outcome = .ok plan := by
  induction types generalizing plans with
  | nil =>
      have hnil : plans = [] := by simpa [plansOf, eq_comm] using h
      simp [hnil] at hplan
  | cons first types ih =>
      obtain ⟨plan', hof, more, hmore, rfl⟩ := plansOf_cons_eq_ok_iff.1 h
      obtain heq | hplan := List.mem_cons.1 hplan
      · cases heq
        exact ⟨first, List.mem_cons_self, hof⟩
      · obtain ⟨type, htype, hof⟩ := ih hmore hplan
        exact ⟨type, List.mem_cons_of_mem _ htype, hof⟩

/-- The plans of the types are among the plans of a schema. -/
theorem hasPlan_of_mem_typePlans (h : schema.typePlans.outcome = .ok plans)
    (hplan : (name, plan) ∈ plans) : schema.HasPlan plan :=
  .inl (planOf_of_mem_plansOf h hplan)

/-- Plans of a schema are found among plans of a schema. -/
theorem HasPlan.of_lookup (hplans : ∀ entry ∈ plans, schema.HasPlan entry.2)
    (h : plans.lookup name = some plan) : schema.HasPlan plan := by
  obtain ⟨before, after, rfl, -⟩ := List.lookup_eq_some_iff.1 h
  exact hplans (name, plan) (by simp)

/-! ## The field lists of a schema -/

theorem properties_mem_fieldLists {type : ObjectType} (h : type ∈ schema.types) :
    type.properties ∈ schema.fieldLists :=
  List.mem_append_left _ (List.mem_map_of_mem h)

theorem inputs_mem_fieldLists {method : Method} (h : method ∈ schema.methods) :
    method.inputs ∈ schema.fieldLists :=
  List.mem_append_right _ (List.mem_flatMap.2 ⟨method, h, by simp⟩)

theorem outputs_mem_fieldLists {method : Method} (h : method ∈ schema.methods) :
    method.outputs ∈ schema.fieldLists :=
  List.mem_append_right _ (List.mem_flatMap.2 ⟨method, h, by simp⟩)

/-- A field list of a schema whose references resolve has its rules. -/
theorem Resolves.rulesOf_isOk_of_mem (h : schema.Resolves) (owner : String)
    (hfields : fields ∈ schema.fieldLists) :
    ∃ rules, (schema.rulesOf owner fields).outcome = .ok rules := by
  apply rulesOf_isOk
  intro field hfield target htarget
  obtain ⟨place, hmem⟩ : ∃ place, (place, field) ∈ schema.ownedFields := by
    simp only [fieldLists, List.mem_append, List.mem_map, List.mem_flatMap, List.mem_cons,
      List.not_mem_nil, or_false] at hfields
    simp only [ownedFields, List.mem_append, List.mem_flatMap, List.mem_map, Prod.mk.injEq]
    obtain ⟨type, htype, rfl⟩ | ⟨method, hmethod, rfl | rfl⟩ := hfields
    · exact ⟨_, .inl ⟨type, htype, field, hfield, rfl, rfl⟩⟩
    · exact ⟨_, .inr ⟨method, hmethod, .inl ⟨field, hfield, rfl, rfl⟩⟩⟩
    · exact ⟨_, .inr ⟨method, hmethod, .inr ⟨field, hfield, rfl, rfl⟩⟩⟩
  exact h _ hmem target htarget

/-- Types with rules have plans. -/
theorem plansOf_isOk
    (h : ∀ type ∈ types, ∃ rules, (schema.rulesOf type.name type.properties).outcome = .ok rules) :
    ∃ plans, (schema.plansOf types).outcome = .ok plans := by
  induction types with
  | nil => exact ⟨[], rfl⟩
  | cons type types ih =>
      rw [List.forall_mem_cons] at h
      obtain ⟨rules, hrules⟩ := h.1
      obtain ⟨more, hmore⟩ := ih h.2
      have hplan := planOf_eq_ok_iff.2 ⟨rules, hrules, rfl⟩
      exact ⟨_, plansOf_cons_eq_ok_iff.2 ⟨_, hplan, more, hmore, rfl⟩⟩

/-- A schema whose references resolve has the plans of its types. -/
theorem Resolves.typePlans_isOk (h : schema.Resolves) :
    ∃ plans, schema.typePlans.outcome = .ok plans := by
  apply plansOf_isOk
  intro type htype
  exact h.rulesOf_isOk_of_mem _ (properties_mem_fieldLists htype)

/-- A schema of trees: a node has a label and nodes below it. -/
def trees : Schema where
  name := "trees"
  description := ""
  types := [
    { name := "Node"
      description := ""
      properties := [
        { name := "label", type := .primitive .string, description := "", required := true
          default := .text "leaf", enum := some ["leaf", "branch"] },
        { name := "below", type := .array (.reference "Node"), description := ""
          required := false, default := .null, enum := none }] }]
  methods := []
  goTags := []
  typeNames_nodup := by decide
  methodNames_nodup := by decide

end Schema

end RpcBindings
