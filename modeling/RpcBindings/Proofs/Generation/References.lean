import RpcBindings.Generation.Document
import RpcBindings.Proofs.Emission.Failures
import RpcBindings.Proofs.Schema.Document
import RpcBindings.Proofs.Schema.References

/-!
# RpcBindings.Proofs.Generation.References

The check of references stands in front of everything that follows references.
The expressions of types, the plans of validation and the declarations follow them
each in its own way; none goes further than the chain of a field's descriptor, so
what has passed the check fails nowhere for a reference
(`checkReferences_complete`).  A schema that was read from a document fails only
for its names and for defaults that cannot be documented.
-/

namespace RpcBindings

namespace Emitter

variable {e : Emitter}

/-! ## What is permitted -/

/-- Where references lead to declared types, no outline fails for a reference. -/
theorem permits_of_resolves (h : e.schema.Resolves) :
    e.Permits fun error => ∀ unresolved, error ≠ .generation (.unresolved unresolved) where
  naming := by simp
  json := by simp
  types fields hfields field hfield owner := by
    have htargets := h.targets fields hfields field hfield
    apply TypeSystem.failsOnly_expressField
    intro owner
    exact (TypeSystem.failsOnly_express _ htargets).mono fun error hne unresolved heq =>
      hne unresolved (EmissionError.generation.inj heq)
  tests fields _ name rules d _ _ entry _ := by
    unfold checkRules
    split
    · exact .error (by simp)
    · exact .ok ()
  client := by simp

/-- Where a member is tested for a missing value, its language has a test for it. -/
theorem checkRules_eq_ok {m : Member} {steps : List Step}
    (h : Step.required ∈ steps → m.field.type.kind.isChecked = true) :
    e.checkRules m steps = .ok () := by
  unfold checkRules
  rw [if_neg]
  simp only [Bool.and_eq_true, List.contains_iff_mem, Bool.not_eq_true', not_and,
    Bool.not_eq_false]
  intro hrequired
  have hkind := h hrequired
  unfold testsMissing
  cases hfield : m.field.type.kind <;> simp_all [Kind.isChecked]

/-- The steps that a plan writes for a member suit its field. -/
theorem checkRules_of_wellFormed (hschema : e.schema.WellFormed) {fields : List Field}
    (hfields : fields ∈ e.schema.fieldLists) {name : String} {rules : List FieldRules}
    {d : Declaration} (hrules : (e.schema.rulesOf name fields).outcome = .ok rules)
    (hmembers : d.members.map (·.field) = fields) {entry : Member × List Step}
    (hentry : entry ∈ d.ruled ⟨name, rules⟩) : e.checkRules entry.1 entry.2 = .ok () := by
  have hruled := ruled_eq_map (hschema.fieldLists fields hfields).nodup hrules hmembers
  obtain ⟨r, hr, -, hsource, hsteps⟩ := exists_left_of_forall₂ hruled hentry
  refine checkRules_eq_ok fun hrequired => ?_
  rw [hsource]
  rw [hsteps] at hrequired
  exact Schema.suits_of_fieldSteps (Schema.fieldSteps_of_mem_rulesOf hrules hr) _ hrequired

/-- An outline of a schema with the form of a document fails for names and for
defaults without a documented form. -/
theorem permits_of_wellFormed (hschema : e.schema.WellFormed) (h : e.schema.Resolves)
    (hclient : e.options.includeClient → e.language ≠ .go) :
    e.Permits fun error =>
      (∃ naming, error = .generation (.naming naming)) ∨ ∃ json, error = .json json where
  naming error := .inl ⟨error, rfl⟩
  json error := .inr ⟨error, rfl⟩
  types fields hfields field hfield owner := by
    have htargets := h.targets fields hfields field hfield
    have hshape := hschema.hasShape fields hfields field hfield
    apply TypeSystem.failsOnly_expressField
    intro owner
    refine (TypeSystem.failsOnly_express_of_hasShape hshape htargets).mono ?_
    rintro _ ⟨naming, rfl⟩
    exact .inl ⟨naming, rfl⟩
  tests fields hfields name rules d hrules hmembers entry hentry :=
    .of_isOk ⟨(), checkRules_of_wellFormed hschema hfields hrules hmembers hentry⟩
  client htrue hgo := absurd hgo (hclient htrue)

end Emitter

namespace Schema

variable {schema : Schema}

/-! ## Lookups by name -/

/-- What is looked up by name in generating a document is there: each type has its
plan, and the members of what a plan validates hold a member for each of its fields. -/
structure LookupsSucceed (schema : Schema) : Prop where
  types : ∀ plans, schema.typePlans.outcome = .ok plans → ∀ type ∈ schema.types,
    ∃ plan, plans.lookup type.name = some plan ∧
      ∀ (e : Emitter) members, e.members type.name type.properties = .ok members →
        Emitter.Covers members plan
  inputs : ∀ method ∈ schema.methods, ∀ plan, (schema.inputPlan method).outcome = .ok plan →
    ∀ (e : Emitter) members, e.members s!"{method.name} input" method.inputs = .ok members →
      Emitter.Covers members plan

/-- The lookups of every schema that resolves succeed. -/
theorem lookupsSucceed (schema : Schema) : schema.LookupsSucceed where
  types plans hplans type htype := by
    obtain ⟨rules, hlookup, hrules⟩ := lookup_typePlans hplans htype
    refine ⟨⟨type.name, rules⟩, hlookup, fun e members hmembers => ?_⟩
    exact Emitter.covers_of_rulesOf hrules (Emitter.map_field_of_members hmembers)
  inputs method _ plan hplan e members hmembers := by
    obtain ⟨rules, hrules, rfl⟩ := planOf_eq_ok_iff.1 hplan
    exact Emitter.covers_of_rulesOf hrules (Emitter.map_field_of_members hmembers)

/-! ## Documents -/

/-- No target writes a client in Go. -/
theorem includeClient_of_ofName? {name : String} {target : Target}
    (h : Target.ofName? name = some target) (hclient : target.includeClient = true) :
    target.language ≠ .go := by
  have hall : ∀ target ∈ Target.all, target.includeClient = true → target.language ≠ .go := by
    decide
  exact hall target (List.mem_of_find?_eq_some h) hclient

/-- After the check of references, a document fails for names, or as its outline does. -/
theorem failsOnly_generate {P : EmissionError → Prop} (settings : Settings)
    (hreferences : schema.checkReferences = .ok ())
    (hnaming : ∀ error, P (.generation (.naming error)))
    (houtline : ∀ target, Target.ofName? settings.target = some target → ∀ e,
      Emitter.create target.language schema (settings.options schema target) = .ok e →
        FailsOnly P e.outline.outcome) :
    FailsOnly (fun error => ∀ emission, error = .emission emission → P emission)
      (schema.generate settings).outcome := by
  unfold generate
  split
  · exact .error (by simp)
  · next target htarget =>
    simp only [Noted.outcome_bind, Noted.outcome_lift, Noted.outcome_note, Noted.outcome_mapError,
      Noted.outcome_mapNotices, Noted.outcome_pure, hreferences, ok_bind]
    refine FailsOnly.bind (.ok ()) fun _ _ => ?_
    refine FailsOnly.bind (.mapError ?_) fun e he => ?_
    · intro error _ emission heq
      exact DocumentError.emission.inj heq ▸ hnaming error
    · refine FailsOnly.bind (.mapError ?_) fun document _ => .ok document
      rw [Emitter.document, Noted.outcome_bind]
      have hdocument := houtline target htarget e (mapError_eq_ok_iff.1 he)
      refine FailsOnly.mono (hdocument.bind fun outline _ => .ok _) ?_
      intro error herror emission heq
      exact DocumentError.emission.inj heq ▸ herror

/-- A document of a schema whose references resolve fails for no reference. -/
theorem generate_ne_unresolved (h : schema.checkReferences = .ok ()) (settings : Settings)
    (unresolved : UnresolvedReference) :
    (schema.generate settings).outcome ≠
      .error (.emission (.generation (.unresolved unresolved))) := by
  have hresolves := checkReferences_eq_ok_iff.1 h
  have hfails : FailsOnly (fun error => ∀ emission, error = .emission emission →
      ∀ unresolved, emission ≠ .generation (.unresolved unresolved))
      (schema.generate settings).outcome := by
    refine failsOnly_generate settings h (by simp) fun target _ e he => ?_
    obtain ⟨-, hschema, -⟩ := (Emitter.owns_of_create he).1
    obtain rfl : e.schema = schema := hschema
    exact Emitter.failsOnly_outline (Emitter.permits_of_resolves hresolves) hresolves
  intro heq
  exact hfails _ heq _ rfl unresolved rfl

/-- A document of a schema with the form of a document whose references resolve fails
for names and for defaults without a documented form. -/
theorem generate_eq_error (hschema : schema.WellFormed) (h : schema.checkReferences = .ok ())
    {settings : Settings} {error : EmissionError}
    (herror : (schema.generate settings).outcome = .error (.emission error)) :
    (∃ naming, error = .generation (.naming naming)) ∨ ∃ json, error = .json json := by
  have hresolves := checkReferences_eq_ok_iff.1 h
  have hfails : FailsOnly (fun error => ∀ emission, error = .emission emission →
      (∃ naming, emission = .generation (.naming naming)) ∨ ∃ json, emission = .json json)
      (schema.generate settings).outcome := by
    refine failsOnly_generate settings h (fun naming => .inl ⟨naming, rfl⟩) ?_
    intro target htarget e he
    obtain ⟨hlanguage, heq, hoptions, -⟩ := (Emitter.owns_of_create he).1
    obtain rfl : e.schema = schema := heq
    refine Emitter.failsOnly_outline (Emitter.permits_of_wellFormed hschema hresolves ?_) hresolves
    intro hclient
    rw [hlanguage]
    rw [hoptions] at hclient
    exact includeClient_of_ofName? htarget hclient
  exact hfails _ herror _ rfl

/-- **The check of references is complete.**  It succeeds just where every reference
names a declared type, and otherwise reports the first that does not.  No document
of a schema that passes it fails for a reference; if a document describes the
schema, it fails only for a name or for a default without a documented form, and
nothing that is looked up by name is missing. -/
theorem checkReferences_complete (schema : Schema) :
    (schema.checkReferences = .ok () ↔
      ∀ reference ∈ schema.references, schema.IsDeclared reference) ∧
    (∀ error, schema.checkReferences = .error error ↔
      ∃ before place target after, schema.references = before ++ (place, target) :: after ∧
        (∀ reference ∈ before, schema.IsDeclared reference) ∧
        ¬schema.IsDeclared (place, target) ∧ error = ⟨some place, target⟩) ∧
    (schema.checkReferences = .ok () → ∀ settings unresolved,
      (schema.generate settings).outcome ≠
        .error (.emission (.generation (.unresolved unresolved)))) ∧
    (schema.checkReferences = .ok () → (∃ root, ofValue root = .ok schema) → ∀ settings error,
      (schema.generate settings).outcome = .error (.emission error) →
        (∃ naming, error = .generation (.naming naming)) ∨ ∃ json, error = .json json) ∧
    schema.LookupsSucceed := by
  refine ⟨?_, fun error => checkReferences_eq_error_iff, generate_ne_unresolved, ?_,
    schema.lookupsSucceed⟩
  · rw [checkReferences_eq_ok_iff, forall_mem_references_iff]
  · rintro h ⟨root, hroot⟩ settings error herror
    exact generate_eq_error (wellFormed_of_ofValue hroot) h herror

/-- A document describes the schema of trees, whose references resolve. -/
theorem trees_checkReferences_complete :
    trees.checkReferences = .ok () ∧ (∃ root, ofValue root = .ok trees) ∧
      ∀ settings error, (trees.generate settings).outcome = .error (.emission error) →
        (∃ naming, error = .generation (.naming naming)) ∨ ∃ json, error = .json json := by
  have hcheck : trees.checkReferences = .ok () := by decide
  have hroot : ∃ root, ofValue root = .ok trees := ⟨_, ofValue_toValue wellFormed_trees⟩
  exact ⟨hcheck, hroot, (checkReferences_complete trees).2.2.2.1 hcheck hroot⟩

end Schema

end RpcBindings
