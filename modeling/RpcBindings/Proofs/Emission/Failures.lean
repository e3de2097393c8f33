import RpcBindings.Proofs.Emission.Members
import RpcBindings.Proofs.Typing.Expression

/-!
# RpcBindings.Proofs.Emission.Failures

The errors with which an outline can fail.  Names can lack identifiers or meet, and
defaults can lack a documented form; what else can fail depends on the schema and
the target, and is gathered in `Permits`.  One walk over the outline shows that
nothing fails in another way (`failsOnly_outline`).
-/

namespace RpcBindings

namespace Emitter

variable {e : Emitter} {P : EmissionError → Prop} {owner : String} {fields : List Field}
  {d : Declaration}

/-- The errors that single steps of an outline can fail with are permitted. -/
structure Permits (e : Emitter) (P : EmissionError → Prop) : Prop where
  naming : ∀ error, P (.generation (.naming error))
  json : ∀ error, P (.json error)
  types : ∀ fields ∈ e.schema.fieldLists, ∀ field ∈ fields, ∀ owner,
    FailsOnly (fun error => P (.generation error))
      (e.language.typeSystem.expressField e.schema owner field)
  tests : ∀ fields ∈ e.schema.fieldLists, ∀ name rules (d : Declaration),
    (e.schema.rulesOf name fields).outcome = .ok rules → d.members.map (·.field) = fields →
      ∀ entry ∈ d.ruled ⟨name, rules⟩, FailsOnly P (e.checkRules entry.1 entry.2)
  client : e.options.includeClient → e.language = .go → P (.noClient .go)

/-- Where references lead to declared types, there is the plan of an input. -/
theorem inputRules_isOk (hresolves : e.schema.Resolves) {method : Method}
    (hmethod : method ∈ e.schema.methods) : ∃ rules, e.inputRules method = .ok rules := by
  obtain ⟨rules, hrules⟩ :=
    hresolves.rulesOf_isOk_of_mem method.inputName (Schema.inputs_mem_fieldLists hmethod)
  have hplan : (e.schema.inputPlan method).outcome = .ok ⟨method.inputName, rules⟩ :=
    Schema.planOf_eq_ok_iff.2 ⟨rules, hrules, rfl⟩
  unfold inputRules
  split
  · rw [hplan]
    exact ⟨_, rfl⟩
  · exact ⟨none, rfl⟩

/-- Where references lead to declared types, the plans exist. -/
theorem plans?_isOk (hresolves : e.schema.Resolves) : ∃ plans, e.plans?.outcome = .ok plans := by
  obtain ⟨plans, hplans⟩ := hresolves.typePlans_isOk
  rw [outcome_plans?]
  split
  · rw [hplans]
    exact ⟨_, rfl⟩
  · exact ⟨none, rfl⟩

namespace Permits

/-- A naming error is permitted. -/
theorem orNaming {α : Type} (h : e.Permits P) (outcome : Except NamingError α) :
    FailsOnly P (Emitter.orNaming outcome) :=
  .mapError fun error _ => h.naming error

/-! ## Members -/

/-- Typed fields fail with naming errors and with the errors of their types. -/
theorem typedFields (h : e.Permits P) (scope : Scope)
    (hfields : ∀ field ∈ fields, ∀ owner, FailsOnly (fun error => P (.generation error))
      (e.language.typeSystem.expressField e.schema owner field)) :
    FailsOnly (fun error => P (.generation error)) (e.typedFields owner scope fields) := by
  induction fields generalizing scope with
  | nil => exact .ok []
  | cons field rest ih =>
      rw [List.forall_mem_cons] at hfields
      rw [Emitter.typedFields]
      refine FailsOnly.bind (.mapError fun error _ => h.naming error) ?_
      rintro ⟨identifier, scope⟩ -
      refine (hfields.1 _).bind fun type _ => ?_
      exact (ih scope hfields.2).bind fun more _ => .ok _

/-- The members of a field list fail with permitted errors only. -/
theorem members (h : e.Permits P) (hfields : fields ∈ e.schema.fieldLists) :
    FailsOnly P (e.members owner fields) := by
  unfold Emitter.members
  refine FailsOnly.bind (.mapError (h.typedFields _ (h.types fields hfields))) ?_
  intro typed _
  apply FailsOnly.mapM
  intro t _
  exact FailsOnly.bind (.mapError fun error _ => h.json error) fun summary _ => .ok _

/-! ## Declarations -/

/-- A declaration without validation can be written, and so can one that is
validated by the plan for its fields. -/
theorem writable (h : e.Permits P) (hfields : fields ∈ e.schema.fieldLists)
    (hmembers : e.members owner fields = .ok d.members) {name : String}
    (hplanned : e.Planned name fields d.rules) : FailsOnly P (e.writable d) := by
  refine FailsOnly.bind (.forM ?_) fun _ _ => .ok d
  obtain hnone | ⟨rules, hsome, hrules⟩ := hplanned.eq_none_or
  · simp [hnone]
  · rw [hsome]
    exact h.tests fields hfields name rules d hrules (map_field_of_members hmembers)

/-- The declaration of a type fails with permitted errors only. -/
theorem typeDeclaration (h : e.Permits P) {plans : Option Plans}
    (hplans : e.plans?.outcome = .ok plans) {type : ObjectType} (htype : type ∈ e.schema.types) :
    FailsOnly P (e.typeDeclaration plans type) := by
  have hfields := Schema.properties_mem_fieldLists htype
  unfold Emitter.typeDeclaration
  refine (h.orNaming _).bind fun name _ => ?_
  refine (h.members hfields).bind fun members hmembers => ?_
  exact h.writable hfields hmembers (planned_type hplans htype)

variable {method : Method}

theorem inputDeclaration (h : e.Permits P) (hresolves : e.schema.Resolves)
    (hmethod : method ∈ e.schema.methods) :
    FailsOnly P (e.inputDeclaration method).outcome := by
  have hfields := Schema.inputs_mem_fieldLists hmethod
  obtain ⟨rules, hrules⟩ := inputRules_isOk hresolves hmethod
  rw [outcome_inputDeclaration]
  split
  · exact .ok []
  · refine (h.orNaming _).bind fun name _ => ?_
    refine (h.members hfields).bind fun members hmembers => ?_
    rw [hrules, ok_bind]
    exact (h.writable hfields hmembers (planned_input hrules)).bind fun _ _ => .ok _

theorem outputDeclaration (h : e.Permits P) (hmethod : method ∈ e.schema.methods) :
    FailsOnly P (e.outputDeclaration method) := by
  have hfields := Schema.outputs_mem_fieldLists hmethod
  unfold Emitter.outputDeclaration
  split
  · exact .ok []
  · exact (h.orNaming _).bind fun name _ => (h.members hfields).bind fun members _ => .ok _

theorem methodDeclarations (h : e.Permits P) (hresolves : e.schema.Resolves)
    {methods : List Method} (hmethods : ∀ method ∈ methods, method ∈ e.schema.methods) :
    FailsOnly P (e.methodDeclarations methods).outcome := by
  induction methods with
  | nil => exact .ok []
  | cons method rest ih =>
      rw [List.forall_mem_cons] at hmethods
      rw [outcome_methodDeclarations_cons]
      refine (h.inputDeclaration hresolves hmethods.1).bind fun input _ => ?_
      refine (h.outputDeclaration hmethods.1).bind fun output _ => ?_
      exact (ih hmethods.2).bind fun more _ => .ok _

theorem declarationOutlines (h : e.Permits P) (hresolves : e.schema.Resolves) :
    FailsOnly P e.declarationOutlines.outcome := by
  rw [outcome_declarationOutlines]
  refine FailsOnly.bind (.of_isOk (plans?_isOk hresolves)) fun plans hplans => ?_
  refine FailsOnly.bind (.mapM fun type htype => h.typeDeclaration hplans htype) fun types _ => ?_
  exact (h.methodDeclarations hresolves fun _ hmethod => hmethod).bind fun methods _ => .ok _

/-! ## Stubs -/

theorem parameter (h : e.Permits P) (hmethod : method ∈ e.schema.methods) {field : Field}
    (hfield : field ∈ method.inputs) : FailsOnly P (e.parameter method field) := by
  have hfields := Schema.inputs_mem_fieldLists hmethod
  unfold Emitter.parameter
  refine FailsOnly.bind (.mapError (h.types _ hfields field hfield _)) fun type _ => ?_
  exact FailsOnly.bind (.mapError fun error _ => h.json error) fun sentences _ => .ok _

theorem nameOf? (h : e.Permits P) (fields : List Field) (name : String) :
    FailsOnly P (e.nameOf? fields name) := by
  unfold Emitter.nameOf?
  split
  · exact .ok none
  · exact (h.orNaming _).map

theorem stub (h : e.Permits P) (hmethod : method ∈ e.schema.methods) :
    FailsOnly P (e.stub method) := by
  rw [stub_eq_bind]
  refine (h.orNaming _).bind fun function _ => ?_
  refine (h.nameOf? _ _).bind fun input _ => ?_
  refine (h.nameOf? _ _).bind fun output _ => ?_
  refine FailsOnly.bind ?_ fun parameters _ => .ok _
  split
  · exact .mapM fun field hfield => h.parameter hmethod hfield
  · exact .ok []

theorem stubs (h : e.Permits P) (hclient : e.options.includeClient) : FailsOnly P e.stubs := by
  unfold Emitter.stubs
  split
  · next hgo => exact .error (h.client hclient (beq_iff_eq.1 hgo))
  · exact .mapM fun method hmethod => h.stub hmethod

end Permits

/-- An outline fails with permitted errors only. -/
theorem failsOnly_outline (h : e.Permits P) (hresolves : e.schema.Resolves) :
    FailsOnly P e.outline.outcome := by
  rw [outcome_outline]
  refine FailsOnly.bind ?_ fun declarations _ => FailsOnly.bind ?_ fun stubs _ => .ok _
  · split
    · exact h.declarationOutlines hresolves
    · exact .ok []
  · split
    · next hclient => exact h.stubs hclient
    · exact .ok []

end Emitter

end RpcBindings
