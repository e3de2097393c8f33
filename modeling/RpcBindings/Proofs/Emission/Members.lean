import Mathlib.Data.List.Nodup
import RpcBindings.Proofs.Emission.Claims
import RpcBindings.Proofs.Emission.Steps
import RpcBindings.Proofs.Validation.Plans

/-!
# RpcBindings.Proofs.Emission.Members

What the declarations of a document are made of.  A document declares its types and
the inputs and outputs of its methods, in this order (`subjects`); every
declaration holds a member for each of its fields, and its validation, if it has
one, is the plan for these fields.  So a plan finds the member of every field that
it validates.
-/

namespace RpcBindings

/-! ## What is declared -/

/-- Something that a document declares. -/
structure Subject where
  role : DeclarationRole
  /-- The name that it is declared under. -/
  name : String
  /-- What its fields belong to in messages. -/
  owner : String
  fields : List Field
  /-- Whether values are validated where validation is written. -/
  isChecked : Bool

namespace Subject

def ofType (type : ObjectType) : Subject :=
  ⟨.type type.description, type.name, type.name, type.properties, true⟩

def ofInput (method : Method) : Subject :=
  ⟨.input, method.inputName, s!"{method.name} input", method.inputs, true⟩

def ofOutput (method : Method) : Subject :=
  ⟨.output, method.outputName, s!"{method.name} output", method.outputs, false⟩

/-- The input and the output of a method, if it has them. -/
def ofMethod (method : Method) : List Subject :=
  (if method.inputs.isEmpty then [] else [ofInput method]) ++
    (if method.outputs.isEmpty then [] else [ofOutput method])

end Subject

namespace Schema

/-- All that is declared, in the order in which it is written. -/
def subjects (schema : Schema) : List Subject :=
  schema.types.map Subject.ofType ++ schema.methods.flatMap Subject.ofMethod

/-- What is declared is declared under the declared names. -/
theorem map_name_subjects (schema : Schema) :
    schema.subjects.map (·.name) = schema.declaredNames := by
  have hmethod (method : Method) :
      (Subject.ofMethod method).map (·.name) = ioNames method := by
    unfold Subject.ofMethod ioNames
    split <;> split <;> rfl
  rw [subjects, declaredNames, List.map_append, List.map_map, List.map_flatMap]
  simp only [hmethod]
  rfl

variable {schema : Schema} {subject : Subject}

/-- What a document declares has a declared name. -/
theorem name_mem_declaredNames (h : subject ∈ schema.subjects) :
    subject.name ∈ schema.declaredNames :=
  schema.map_name_subjects ▸ List.mem_map_of_mem h

/-- What a document declares is a type, an input or an output of the schema. -/
theorem mem_subjects (h : subject ∈ schema.subjects) :
    (∃ type ∈ schema.types, subject = .ofType type) ∨
      ∃ method ∈ schema.methods, subject = .ofInput method ∨ subject = .ofOutput method := by
  simp only [subjects, List.mem_append, List.mem_map, List.mem_flatMap] at h
  obtain ⟨type, htype, rfl⟩ | ⟨method, hmethod, hsubject⟩ := h
  · exact .inl ⟨type, htype, rfl⟩
  · rw [Subject.ofMethod, List.mem_append, List.mem_ite_nil_left, List.mem_ite_nil_left,
      List.mem_singleton, List.mem_singleton] at hsubject
    exact .inr ⟨method, hmethod, hsubject.imp And.right And.right⟩

/-- The fields of what is declared are fields of the schema. -/
theorem fields_mem_fieldLists (h : subject ∈ schema.subjects) :
    subject.fields ∈ schema.fieldLists := by
  obtain ⟨type, htype, rfl⟩ | ⟨method, hmethod, rfl | rfl⟩ := mem_subjects h
  · exact properties_mem_fieldLists htype
  · exact inputs_mem_fieldLists hmethod
  · exact outputs_mem_fieldLists hmethod

theorem ofType_mem_subjects {type : ObjectType} (htype : type ∈ schema.types) :
    .ofType type ∈ schema.subjects :=
  List.mem_append_left _ (List.mem_map_of_mem htype)

theorem ofInput_mem_subjects {method : Method} (hmethod : method ∈ schema.methods)
    (hinputs : method.inputs ≠ []) : .ofInput method ∈ schema.subjects := by
  refine List.mem_append_right _ (List.mem_flatMap.2 ⟨method, hmethod, ?_⟩)
  simp [Subject.ofMethod, hinputs]

theorem ofOutput_mem_subjects {method : Method} (hmethod : method ∈ schema.methods)
    (houtputs : method.outputs ≠ []) : .ofOutput method ∈ schema.subjects := by
  refine List.mem_append_right _ (List.mem_flatMap.2 ⟨method, hmethod, ?_⟩)
  simp [Subject.ofMethod, houtputs]

end Schema

namespace Emitter

variable {e : Emitter} {owner : String} {fields : List Field} {members : List Member}

/-! ## Members -/

/-- What a field becomes. -/
structure HasMember (e : Emitter) (owner : String) (field : Field) (m : Member) : Prop where
  source : m.field = field
  identifier : e.language.identifier .field field.name = .ok m.identifier
  type : e.language.typeSystem.expressField e.schema (some owner) field = .ok m.type

/-- Each typed field has the identifier and the type that the language gives it. -/
theorem typedFields_eq_ok {scope : Scope} {typed : List (Field × String × String)}
    (hlanguage : scope.language = e.language) (hrole : scope.role = .field)
    (h : e.typedFields owner scope fields = .ok typed) :
    List.Forall₂ (fun field t => t.1 = field ∧
      e.language.identifier .field field.name = .ok t.2.1 ∧
      e.language.typeSystem.expressField e.schema (some owner) field = .ok t.2.2) fields typed := by
  induction fields generalizing scope typed with
  | nil =>
      obtain rfl := Except.ok.inj h
      exact .nil
  | cons field rest ih =>
      simp only [typedFields, bind_eq_ok_iff, mapError_eq_ok_iff, pure_eq_ok, Except.ok.injEq] at h
      obtain ⟨⟨identifier, scope'⟩, hclaim, type, htype, more, hmore, rfl⟩ := h
      obtain ⟨hext, howns⟩ := Scope.owns_of_claim hclaim
      have hidentifier := howns.1
      rw [hext.language, hext.role, hlanguage, hrole] at hidentifier
      exact .cons ⟨rfl, hidentifier, htype⟩
        (ih (hext.language.trans hlanguage) (hext.role.trans hrole) hmore)

/-- Fields become their members in order. -/
theorem members_eq_ok (h : e.members owner fields = .ok members) :
    List.Forall₂ (e.HasMember owner) fields members := by
  obtain ⟨typed, htyped, hsummaries⟩ := bind_eq_ok_iff.1 h
  have hscope := Scope.extends_reserve (Scope.empty s!"fields of {owner}" e.language .field)
    (e.language.reserved e.options .field)
  have hfields := typedFields_eq_ok hscope.language hscope.role (mapError_eq_ok_iff.1 htyped)
  rw [mapM_eq_ok_iff] at hsummaries
  clear h htyped hscope
  induction hfields generalizing members with
  | nil =>
      obtain rfl := List.forall₂_nil_left_iff.1 hsummaries
      exact .nil
  | cons hfield _ ih =>
      obtain ⟨m, more, hm, hmore, rfl⟩ := List.forall₂_cons_left_iff.1 hsummaries
      obtain ⟨summary, -, hm⟩ := bind_eq_ok_iff.1 hm
      obtain rfl := Except.ok.inj hm
      exact .cons ⟨hfield.1, hfield.2.1, hfield.2.2⟩ (ih hmore)

/-- The members are those of the fields, in order. -/
theorem map_field_of_members (h : e.members owner fields = .ok members) :
    members.map (·.field) = fields := by
  have hmembers := members_eq_ok h
  clear h
  induction hmembers with
  | nil => rfl
  | cons hm _ ih => rw [List.map_cons, hm.source, ih]

/-! ## The members that a plan validates -/

/-- Every field that the plan validates has a member of its name. -/
def Covers (members : List Member) (plan : Plan) : Prop :=
  ∀ rules ∈ plan.fields, ∃ m ∈ members, m.field.name = rules.field.name

/-- The plan for some fields finds them among their members. -/
theorem covers_of_rulesOf {schema : Schema} {name : String} {rules : List FieldRules}
    (hrules : (schema.rulesOf name fields).outcome = .ok rules)
    (hmembers : members.map (·.field) = fields) : Covers members ⟨name, rules⟩ := by
  intro r hr
  have hfield := (Schema.rulesOf_sublist hrules).subset (List.mem_map_of_mem hr)
  rw [← hmembers] at hfield
  obtain ⟨m, hm, heq⟩ := List.mem_map.1 hfield
  exact ⟨m, hm, congrArg Field.name heq⟩

/-- Each field of the plan is validated on a member of its name, with its steps. -/
theorem ruled_of_covers {d : Declaration} {plan : Plan} (h : Covers d.members plan) :
    List.Forall₂ (fun rules entry => entry.1 ∈ d.members ∧
      entry.1.field.name = rules.field.name ∧ entry.2 = rules.steps) plan.fields
      (d.ruled plan) := by
  rw [Covers] at h
  rw [Declaration.ruled]
  generalize plan.fields = fields at h ⊢
  induction fields with
  | nil => exact .nil
  | cons rules rest ih =>
      rw [List.forall_mem_cons] at h
      obtain ⟨m, hm, hname⟩ := h.1
      -- Of several members with this name the last one is found.
      cases hfound : d.members.reverse.find? (·.field.name == rules.field.name) with
      | none =>
          rw [List.find?_eq_none] at hfound
          exact absurd (beq_iff_eq.2 hname) (hfound m (List.mem_reverse.2 hm))
      | some found =>
          rw [List.filterMap_cons, hfound]
          have hmem := List.mem_reverse.1 (List.mem_of_find?_eq_some hfound)
          have heq := List.find?_some hfound
          exact .cons ⟨hmem, beq_iff_eq.1 heq, rfl⟩ (ih h.2)

/-- Where names are distinct, that member is the one of the field. -/
theorem ruled_eq_map {schema : Schema} {d : Declaration} {name : String} {rules : List FieldRules}
    (hnames : (fields.map (·.name)).Nodup)
    (hrules : (schema.rulesOf name fields).outcome = .ok rules)
    (hmembers : d.members.map (·.field) = fields) :
    List.Forall₂ (fun rules entry => entry.1 ∈ d.members ∧
      entry.1.field = rules.field ∧ entry.2 = rules.steps) rules (d.ruled ⟨name, rules⟩) := by
  have hruled := ruled_of_covers (covers_of_rulesOf hrules hmembers)
  have hsublist := (Schema.rulesOf_sublist hrules).subset
  rw [List.forall₂_iff_get] at hruled ⊢
  refine ⟨hruled.1, fun i hi hi' => ?_⟩
  obtain ⟨hmem, hname, hsteps⟩ := hruled.2 i hi hi'
  refine ⟨hmem, ?_, hsteps⟩
  apply List.inj_on_of_nodup_map hnames _ _ hname
  · exact hmembers ▸ List.mem_map_of_mem hmem
  · exact hsublist (List.mem_map_of_mem (List.get_mem _ _))

/-! ## Plans -/

/-- Where validation is written, fields are validated by the plan for them. -/
def Planned (e : Emitter) (name : String) (fields : List Field) (plan? : Option Plan) : Prop :=
  if e.options.validate then
    ∃ rules, plan? = some ⟨name, rules⟩ ∧ (e.schema.rulesOf name fields).outcome = .ok rules
  else plan? = none

/-- A declaration has no plan, or the one of its fields. -/
theorem Planned.eq_none_or {name : String} {plan? : Option Plan}
    (h : e.Planned name fields plan?) :
    plan? = none ∨
      ∃ rules, plan? = some ⟨name, rules⟩ ∧ (e.schema.rulesOf name fields).outcome = .ok rules := by
  unfold Planned at h
  split at h
  · exact .inr h
  · exact .inl h

/-- Types are found in the plans of the schema. -/
theorem planned_type {plans : Option Plans} {type : ObjectType}
    (hplans : e.plans?.outcome = .ok plans) (htype : type ∈ e.schema.types) :
    e.Planned type.name type.properties (plans.bind (·.lookup type.name)) := by
  rw [outcome_plans?] at hplans
  unfold Planned
  split
  · next hvalidate =>
    rw [if_pos hvalidate, map_eq_ok_iff] at hplans
    obtain ⟨found, hfound, rfl⟩ := hplans
    exact Schema.lookup_typePlans (mapError_eq_ok_iff.1 hfound) htype
  · next hvalidate =>
    rw [if_neg hvalidate] at hplans
    rw [← Except.ok.inj hplans, Option.bind_none]

/-- Inputs have plans of their own. -/
theorem planned_input {method : Method} {rules : Option Plan}
    (hrules : e.inputRules method = .ok rules) :
    e.Planned method.inputName method.inputs rules := by
  unfold inputRules at hrules
  unfold Planned
  split
  · next hvalidate =>
    rw [if_pos hvalidate, map_eq_ok_iff] at hrules
    obtain ⟨plan, hplan, rfl⟩ := hrules
    obtain ⟨rules, hrules, rfl⟩ := Schema.planOf_eq_ok_iff.1 (mapError_eq_ok_iff.1 hplan)
    exact ⟨rules, rfl, hrules⟩
  · next hvalidate =>
    rw [if_neg hvalidate] at hrules
    exact (Except.ok.inj hrules).symm

/-! ## Declarations -/

/-- What a declaration consists of. -/
structure Declares (e : Emitter) (subject : Subject) (d : Declaration) : Prop where
  role : d.role = subject.role
  name : e.declarationName subject.name = .ok d.name
  members : e.members subject.owner subject.fields = .ok d.members
  /-- The plan for the fields, where one is written. -/
  rules : if e.options.validate && subject.isChecked then
      ∃ rules, d.rules = some ⟨subject.name, rules⟩ ∧
        (e.schema.rulesOf subject.name subject.fields).outcome = .ok rules
    else d.rules = none

/-- What a declaration is validated by is the plan for its fields. -/
theorem Declares.plan_eq {subject : Subject} {d : Declaration} {plan : Plan}
    (h : e.Declares subject d) (hplan : d.rules = some plan) :
    e.options.validate = true ∧ ∃ rules, plan = ⟨subject.name, rules⟩ ∧
      (e.schema.rulesOf subject.name subject.fields).outcome = .ok rules := by
  have hrules := h.rules
  split at hrules
  · next hvalidate =>
    rw [Bool.and_eq_true] at hvalidate
    obtain ⟨rules, hsome, hrules⟩ := hrules
    exact ⟨hvalidate.1, rules, Option.some.inj (hplan.symm.trans hsome), hrules⟩
  · rw [hplan] at hrules
    contradiction

/-- The steps that a declaration validates a member by are those of a field of the
same name, and of the member's own field where names are distinct. -/
theorem Declares.ruled {subject : Subject} {d : Declaration} {plan : Plan}
    {entry : Member × List Step} (h : e.Declares subject d) (hplan : d.rules = some plan)
    (hentry : entry ∈ d.ruled plan) :
    e.options.validate = true ∧ entry.1 ∈ d.members ∧ ∃ field ∈ subject.fields,
      entry.1.field.name = field.name ∧
        e.schema.fieldSteps subject.name field = .ok entry.2 ∧
          ((subject.fields.map (·.name)).Nodup → entry.1.field = field) := by
  obtain ⟨hvalidate, rules, rfl, hrules⟩ := h.plan_eq hplan
  have hfields := map_field_of_members h.members
  obtain ⟨r, hr, hm, hname, hsteps⟩ :=
    exists_left_of_forall₂ (ruled_of_covers (covers_of_rulesOf hrules hfields)) hentry
  have hfield := (Schema.rulesOf_sublist hrules).subset (List.mem_map_of_mem hr)
  refine ⟨hvalidate, hm, r.field, hfield, hname, ?_, fun hnodup => ?_⟩
  · rw [hsteps]
    exact Schema.fieldSteps_of_mem_rulesOf hrules hr
  · have hown : entry.1.field ∈ subject.fields := hfields ▸ List.mem_map_of_mem hm
    exact List.inj_on_of_nodup_map hnodup hown hfield hname

/-- The declaration of a type declares it. -/
theorem declares_type {plans : Option Plans} {type : ObjectType} {d : Declaration}
    (hplans : e.plans?.outcome = .ok plans) (htype : type ∈ e.schema.types)
    (h : e.typeDeclaration plans type = .ok d) : e.Declares (.ofType type) d := by
  simp only [typeDeclaration, bind_eq_ok_iff, orNaming_eq_ok_iff] at h
  obtain ⟨name, hname, members, hmembers, hwritable⟩ := h
  obtain rfl := eq_of_writable hwritable
  refine ⟨rfl, hname, hmembers, ?_⟩
  have hchecked : (Subject.ofType type).isChecked = true := rfl
  rw [hchecked, Bool.and_true]
  exact planned_type hplans htype

/-- A method with inputs declares them, and one without declares nothing for them. -/
theorem declares_input {method : Method} {ds : List Declaration}
    (h : (e.inputDeclaration method).outcome = .ok ds) :
    List.Forall₂ e.Declares (if method.inputs.isEmpty then [] else [.ofInput method]) ds := by
  rw [outcome_inputDeclaration] at h
  split at h
  · next hempty =>
    obtain rfl : ds = [] := (Except.ok.inj h).symm
    rw [if_pos hempty]
    exact .nil
  · next hinputs =>
    simp only [bind_eq_ok_iff, orNaming_eq_ok_iff, Except.ok.injEq] at h
    obtain ⟨name, hname, members, hmembers, rules, hrules, d, hwritable, rfl⟩ := h
    rw [if_neg hinputs]
    obtain rfl := eq_of_writable hwritable
    refine .cons ⟨rfl, hname, hmembers, ?_⟩ .nil
    have hchecked : (Subject.ofInput method).isChecked = true := rfl
    rw [hchecked, Bool.and_true]
    exact planned_input hrules

theorem declares_output {method : Method} {ds : List Declaration}
    (h : e.outputDeclaration method = .ok ds) :
    List.Forall₂ e.Declares (if method.outputs.isEmpty then [] else [.ofOutput method]) ds := by
  unfold outputDeclaration at h
  split at h
  · next hempty =>
    obtain rfl : ds = [] := (Except.ok.inj h).symm
    rw [if_pos hempty]
    exact .nil
  · next houtputs =>
    simp only [bind_eq_ok_iff, orNaming_eq_ok_iff, pure_eq_ok, Except.ok.injEq] at h
    obtain ⟨name, hname, members, hmembers, rfl⟩ := h
    rw [if_neg houtputs]
    exact .cons ⟨rfl, hname, hmembers, by simp [Subject.ofOutput]⟩ .nil

/-- The declarations of methods are those of their inputs and outputs, in order. -/
theorem declares_methods {methods : List Method} {ds : List Declaration}
    (h : (e.methodDeclarations methods).outcome = .ok ds) :
    List.Forall₂ e.Declares (methods.flatMap Subject.ofMethod) ds := by
  induction methods generalizing ds with
  | nil =>
      obtain rfl : ds = [] := (Except.ok.inj h).symm
      exact .nil
  | cons method rest ih =>
      simp only [outcome_methodDeclarations_cons, bind_eq_ok_iff, Except.ok.injEq] at h
      obtain ⟨input, hinput, output, houtput, more, hmore, rfl⟩ := h
      rw [List.flatMap_cons, Subject.ofMethod]
      exact List.rel_append (List.rel_append (declares_input hinput) (declares_output houtput))
        (ih hmore)

/-- The declarations of the document stand for its subjects in order. -/
theorem declares_outlines {ds : List Declaration} (h : e.declarationOutlines.outcome = .ok ds) :
    List.Forall₂ e.Declares e.schema.subjects ds := by
  simp only [outcome_declarationOutlines, bind_eq_ok_iff, Except.ok.injEq] at h
  obtain ⟨plans, hplans, types, htypes, methods, hmethods, rfl⟩ := h
  refine List.rel_append ?_ (declares_methods hmethods)
  rw [mapM_eq_ok_iff] at htypes
  rw [List.forall₂_map_left_iff]
  rw [List.forall₂_iff_get] at htypes ⊢
  exact ⟨htypes.1, fun i hi hi' =>
    declares_type hplans (List.get_mem _ _) (htypes.2 i hi hi')⟩

/-- The declarations of an outline stand for the subjects, if there are any. -/
theorem declares_outline {outline : Outline} (h : e.outline.outcome = .ok outline)
    (htypes : e.options.includeTypes = true) :
    List.Forall₂ e.Declares e.schema.subjects outline.declarations := by
  obtain ⟨hdeclarations, -⟩ := outline_eq_ok h
  rw [if_pos htypes] at hdeclarations
  exact declares_outlines hdeclarations

/-- Each declaration of an outline declares a subject of the schema. -/
theorem exists_subject {outline : Outline} {d : Declaration} (h : e.outline.outcome = .ok outline)
    (hd : d ∈ outline.declarations) : ∃ subject ∈ e.schema.subjects, e.Declares subject d := by
  cases htypes : e.options.includeTypes with
  | true => exact exists_left_of_forall₂ (declares_outline h htypes) hd
  | false =>
      obtain ⟨hdeclarations, -⟩ := outline_eq_ok h
      rw [htypes] at hdeclarations
      rw [← Except.ok.inj hdeclarations] at hd
      contradiction

/-! ## Stubs -/

/-- What a stub consists of. -/
structure Calls (e : Emitter) (method : Method) (s : Stub) : Prop where
  source : s.method = method
  function : e.methodName method.name = .ok s.function
  takes : s.input.isSome ↔ method.inputs ≠ []
  input : ∀ name, s.input = some name → e.declarationName method.inputName = .ok name
  gives : s.output.isSome ↔ method.outputs ≠ []
  output : ∀ name, s.output = some name → e.declarationName method.outputName = .ok name
  /-- Only Ruby documents the fields of an input with the stub. -/
  parameters : (if e.language == .ruby then method.inputs.mapM (e.parameter method) else .ok []) =
    .ok s.parameters

/-- The stub of a method calls it. -/
theorem calls_of_stub {method : Method} {s : Stub} (h : e.stub method = .ok s) :
    e.Calls method s := by
  simp only [stub_eq_bind, bind_eq_ok_iff, Except.ok.injEq] at h
  obtain ⟨function, hfunction, input, hinput, output, houtput, parameters, hparameters, rfl⟩ := h
  obtain ⟨htakes, hinput⟩ := nameOf?_eq_ok_iff.1 hinput
  obtain ⟨hgives, houtput⟩ := nameOf?_eq_ok_iff.1 houtput
  exact ⟨rfl, orNaming_eq_ok_iff.1 hfunction, htakes, hinput, hgives, houtput, hparameters⟩

/-- Stubs stand for the methods in order. -/
theorem calls_of_stubs {stubs : List Stub} (h : e.stubs = .ok stubs) :
    e.language ≠ .go ∧ List.Forall₂ e.Calls e.schema.methods stubs := by
  unfold Emitter.stubs at h
  split at h
  · contradiction
  · next hgo =>
    exact ⟨fun heq => hgo (by simp [heq]), (mapM_eq_ok_iff.1 h).imp fun _ _ => calls_of_stub⟩

end Emitter

end RpcBindings
