import RpcBindings.Proofs.Emission.Naming
import RpcBindings.Proofs.Generation.References
import RpcBindings.Proofs.Typing.Expressible

/-!
# RpcBindings.Proofs.Generation.Ready

Emitters of schemas with the form of a document.  Once such an emitter owns the
names that its schema claims and the references lead to declared types, every
field has a type, validation can be written and stubs have their names; so an
outline fails only as the members of what is declared do, one after the other
(`declarationOutlines_members`), or as the parameters of its stubs do
(`stub_eq`).
-/

namespace RpcBindings

namespace Emitter

variable {e : Emitter} {language : Language} {schema : Schema} {options : Options}
  {owner : String} {fields : List Field}

/-- An emitter that owns the names of a schema with the form of a document, whose references lead
to declared types. -/
structure IsReady (e : Emitter) : Prop where
  wellFormed : e.schema.WellFormed
  resolves : e.schema.Resolves
  nameable : e.schema.Nameable e.language e.options
  declarations : ∀ name ∈ e.schema.declaredNames, ∃ identifier,
    e.declarationName name = .ok identifier
  methods : ∀ method ∈ e.schema.methods, ∃ identifier, e.methodName method.name = .ok identifier

/-- An emitter that is created for a schema that resolves is ready. -/
theorem isReady_of_create (hschema : schema.WellFormed) (hresolves : schema.Resolves)
    (h : create language schema options = .ok e) : e.IsReady := by
  obtain ⟨hext, -⟩ := owns_of_create h
  have hnameable := create_isOk_iff.1 ⟨e, h⟩
  obtain ⟨hlanguage, heq, hoptions, -⟩ := hext
  obtain rfl : e.language = language := hlanguage
  obtain rfl : e.schema = schema := heq
  obtain rfl : e.options = options := hoptions
  refine ⟨hschema, hresolves, hnameable, ?_, ?_⟩
  · intro name hname
    obtain ⟨identifier, -, hidentifier⟩ := owns_declaration h hname
    exact ⟨identifier, hidentifier⟩
  · intro method hmethod
    obtain ⟨identifier, -, hidentifier⟩ := owns_method h hmethod
    exact ⟨identifier, hidentifier⟩

/-- The members of what is declared for a subject. -/
def membersOf (e : Emitter) (subject : Subject) : Except EmissionError (List Member) :=
  e.members subject.owner subject.fields

namespace IsReady

variable (h : e.IsReady)

include h

/-! ## Types -/

/-- Every field has a type. -/
theorem expressField_isOk (hfields : fields ∈ e.schema.fieldLists) {field : Field}
    (hfield : field ∈ fields) (owner : Option String) :
    ∃ type, e.language.typeSystem.expressField e.schema owner field = .ok type := by
  have hnames : ∀ type ∈ e.schema.types, e.language.casing .declaration type.name ≠ "" :=
    fun type htype =>
      h.nameable.1.nonempty _ (List.mem_append_left _ (List.mem_map_of_mem htype))
  exact TypeSystem.expressField_isOk_iff.2 (TypeSystem.expressible_of_hasShape
    (h.wellFormed.hasShape fields hfields field hfield)
    (h.resolves.targets fields hfields field hfield) hnames)

/-! ## Declarations -/

/-- Validation can be written wherever it is planned. -/
theorem writable_eq_ok {d : Declaration} (hfields : fields ∈ e.schema.fieldLists)
    (hmembers : e.members owner fields = .ok d.members) {name : String}
    (hplanned : e.Planned name fields d.rules) : e.writable d = .ok d := by
  have hchecks : FailsOnly (fun _ => False)
      ((d.rules.elim [] d.ruled).forM fun entry => e.checkRules entry.1 entry.2) := by
    refine FailsOnly.forM fun entry hentry => .of_isOk ?_
    obtain hnone | ⟨rules, hsome, hrules⟩ := hplanned.eq_none_or
    · simp [hnone] at hentry
    · rw [hsome] at hentry
      exact ⟨(), checkRules_of_wellFormed h.wellFormed hfields hrules
        (map_field_of_members hmembers) hentry⟩
  obtain ⟨checked, hchecked⟩ := hchecks.isOk
  exact bind_eq_ok_iff.2 ⟨checked, hchecked, rfl⟩

/-- What is declared has its identifier. -/
theorem declarationName_isOk {subject : Subject} (hsubject : subject ∈ e.schema.subjects) :
    ∃ name, e.declarationName subject.name = .ok name :=
  h.declarations subject.name (Schema.name_mem_declaredNames hsubject)

/-- Naming a declared name, or nothing where there are no fields, succeeds. -/
theorem nameOf?_isOk {name : String} (hname : fields ≠ [] → name ∈ e.schema.declaredNames) :
    ∃ found, e.nameOf? fields name = .ok found := by
  cases fields with
  | nil => exact ⟨none, rfl⟩
  | cons field rest =>
      obtain ⟨identifier, hidentifier⟩ := h.declarations name (hname (List.cons_ne_nil _ _))
      exact ⟨some identifier, nameOf?_eq_ok_iff.2 (by simpa using hidentifier)⟩

/-- The declaration of a type has the members of its fields. -/
theorem typeDeclaration_members {plans : Option Plans} (hplans : e.plans?.outcome = .ok plans)
    {type : ObjectType} (htype : type ∈ e.schema.types) :
    (e.typeDeclaration plans type).map (·.members) = e.membersOf (.ofType type) := by
  obtain ⟨name, hname⟩ := h.declarationName_isOk (Schema.ofType_mem_subjects htype)
  have hnaming : orNaming (e.declarationName type.name) = .ok name := orNaming_eq_ok_iff.2 hname
  rw [membersOf, Subject.ofType, typeDeclaration, hnaming, ok_bind]
  cases hmembers : e.members type.name type.properties with
  | error error => rfl
  | ok members =>
      have hwritable := h.writable_eq_ok
        (d := ⟨name, .type type.description, members, plans.bind (·.lookup type.name)⟩)
        (Schema.properties_mem_fieldLists htype) hmembers (planned_type hplans htype)
      rw [ok_bind, hwritable]
      rfl

variable {method : Method} (hmethod : method ∈ e.schema.methods)

include hmethod

theorem inputDeclaration_members :
    (e.inputDeclaration method).outcome.map (List.map (·.members)) =
      (if method.inputs.isEmpty then [] else [Subject.ofInput method]).mapM e.membersOf := by
  rw [outcome_inputDeclaration]
  cases hinputs : method.inputs.isEmpty with
  | true => rfl
  | false =>
      have hfields := Schema.inputs_mem_fieldLists hmethod
      obtain ⟨name, hname⟩ := h.declarationName_isOk
        (Schema.ofInput_mem_subjects hmethod (by simpa using hinputs))
      have hnaming : orNaming (e.declarationName method.inputName) = .ok name :=
        orNaming_eq_ok_iff.2 hname
      obtain ⟨rules, hrules⟩ := inputRules_isOk h.resolves hmethod
      simp only [Bool.false_eq_true, if_false, hnaming, hrules, ok_bind, List.mapM_cons,
        List.mapM_nil, membersOf, Subject.ofInput]
      cases hmembers : e.members s!"{method.name} input" method.inputs with
      | error error => rfl
      | ok members =>
          have hwritable := h.writable_eq_ok (d := ⟨name, .input, members, rules⟩) hfields hmembers
            (planned_input hrules)
          rw [ok_bind, hwritable]
          rfl

theorem outputDeclaration_members :
    (e.outputDeclaration method).map (List.map (·.members)) =
      (if method.outputs.isEmpty then [] else [Subject.ofOutput method]).mapM e.membersOf := by
  cases houtputs : method.outputs.isEmpty with
  | true =>
      rw [outputDeclaration, houtputs]
      rfl
  | false =>
      obtain ⟨name, hname⟩ := h.declarationName_isOk
        (Schema.ofOutput_mem_subjects hmethod (by simpa using houtputs))
      have hnaming : orNaming (e.declarationName method.outputName) = .ok name :=
        orNaming_eq_ok_iff.2 hname
      simp only [outputDeclaration, houtputs, Bool.false_eq_true, if_false, hnaming, ok_bind,
        List.mapM_cons, List.mapM_nil, membersOf, Subject.ofOutput]
      cases e.members s!"{method.name} output" method.outputs <;> rfl

omit hmethod in
theorem methodDeclarations_members {methods : List Method}
    (hmethods : ∀ method ∈ methods, method ∈ e.schema.methods) :
    (e.methodDeclarations methods).outcome.map (List.map (·.members)) =
      (methods.flatMap Subject.ofMethod).mapM e.membersOf := by
  induction methods with
  | nil => rfl
  | cons method rest ih =>
      rw [List.forall_mem_cons] at hmethods
      have hinput := h.inputDeclaration_members hmethods.1
      have houtput := h.outputDeclaration_members hmethods.1
      have hrest := ih hmethods.2
      rw [outcome_methodDeclarations_cons, List.flatMap_cons, Subject.ofMethod, List.mapM_append,
        List.mapM_append, ← hinput, ← houtput, ← hrest]
      cases (e.inputDeclaration method).outcome with
      | error => rfl
      | ok input =>
          cases e.outputDeclaration method with
          | error => rfl
          | ok output =>
              cases (e.methodDeclarations rest).outcome with
              | error => rfl
              | ok more => simp [Except.map]

omit hmethod in
/-- The declarations of a document come to the members of its subjects, one after the other. -/
theorem declarationOutlines_members :
    e.declarationOutlines.outcome.map (List.map (·.members)) =
      e.schema.subjects.mapM e.membersOf := by
  obtain ⟨plans, hplans⟩ := plans?_isOk h.resolves
  have htypes : (e.schema.types.mapM (e.typeDeclaration plans)).map (List.map (·.members)) =
      (e.schema.types.map Subject.ofType).mapM e.membersOf := by
    rw [← mapM_map, List.mapM_map]
    exact mapM_congr_mem fun type htype => h.typeDeclaration_members hplans htype
  rw [outcome_declarationOutlines, hplans, ok_bind, Schema.subjects, List.mapM_append, ← htypes,
    ← h.methodDeclarations_members fun method hmethod => hmethod]
  cases e.schema.types.mapM (e.typeDeclaration plans) with
  | error => rfl
  | ok types =>
      cases (e.methodDeclarations e.schema.methods).outcome with
      | error => rfl
      | ok methods => simp [Except.map]

/-! ## Stubs -/

/-- Nothing but the parameters of a stub can be in its way. -/
theorem stub_eq :
    ∃ function input output, e.stub method =
      (if e.language == .ruby then method.inputs.mapM (e.parameter method) else .ok []) >>=
        fun parameters => .ok { function, method, input, output, parameters } := by
  obtain ⟨function, hfunction⟩ := h.methods method hmethod
  have hnaming : orNaming (e.methodName method.name) = .ok function :=
    orNaming_eq_ok_iff.2 hfunction
  obtain ⟨input, hinput⟩ : ∃ input, e.nameOf? method.inputs method.inputName = .ok input :=
    h.nameOf?_isOk fun hinputs =>
      Schema.name_mem_declaredNames (Schema.ofInput_mem_subjects hmethod hinputs)
  obtain ⟨output, houtput⟩ : ∃ output, e.nameOf? method.outputs method.outputName = .ok output :=
    h.nameOf?_isOk fun houtputs =>
      Schema.name_mem_declaredNames (Schema.ofOutput_mem_subjects hmethod houtputs)
  refine ⟨function, input, output, ?_⟩
  rw [stub_eq_bind, hnaming, ok_bind, hinput, ok_bind, houtput, ok_bind]

end IsReady

end Emitter

end RpcBindings
