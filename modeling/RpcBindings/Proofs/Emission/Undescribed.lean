import RpcBindings.Emission.Outline
import RpcBindings.Proofs.Emission.Members
import RpcBindings.Proofs.Schema.Undescribed

/-!
# RpcBindings.Proofs.Emission.Undescribed

Outlines without descriptions.  What is left of an outline then, its bare outline, is
settled by the undescribed schema, and so is the error with which there is none
(`map_outline_undescribed`): descriptions reach the comments of an outline and nothing else.
-/

namespace RpcBindings

/-! ## Bare outlines -/

/-- What is said of a field whatever its description is. -/
def Field.sentences (field : Field) : String :=
  field.constraintSentences.toOption.getD ""

def Member.bare (m : Member) : Member :=
  { m with field := m.field.undescribed, summary := m.field.sentences }

def DeclarationRole.bare : DeclarationRole → DeclarationRole
  | .type _ => .type ""
  | .input => .input
  | .output => .output

def Declaration.bare (d : Declaration) : Declaration :=
  { d with
    role := d.role.bare
    members := d.members.map Member.bare
    rules := d.rules.map Plan.undescribed }

def Parameter.bare (p : Parameter) : Parameter :=
  { p with field := p.field.undescribed, summary := Text.trim p.field.sentences }

def Stub.bare (s : Stub) : Stub :=
  { s with method := s.method.undescribed, parameters := s.parameters.map Parameter.bare }

/-- The outline without descriptions. -/
def Outline.bare (outline : Outline) : Outline :=
  ⟨outline.declarations.map Declaration.bare, outline.stubs.map Stub.bare⟩

/-- A plan finds the bare members. -/
theorem Declaration.ruled_bare (d : Declaration) (plan : Plan) :
    d.bare.ruled plan.undescribed = (d.ruled plan).map fun (m, steps) => (m.bare, steps) := by
  rw [ruled, ruled, Plan.undescribed, List.filterMap_map, List.map_filterMap]
  congr 1
  funext rules
  simp only [Function.comp_apply, bare, ← List.map_reverse, List.find?_map, Option.map_map]
  rfl

namespace Emitter

variable {e : Emitter} {owner : String}

def undescribed (e : Emitter) : Emitter :=
  { e with schema := e.schema.undescribed }

/-! ## Names -/

/-- Descriptions do not decide whether an emitter is created, nor its names. -/
theorem create_undescribed (language : Language) (schema : Schema) (options : Options) :
    create language schema.undescribed options =
      (create language schema options).map undescribed := by
  have hclaims : schema.undescribed.claims = schema.claims := by
    have hmethod (method : Method) :
        Schema.methodClaims method.undescribed = Schema.methodClaims method := by
      simp [Schema.methodClaims, Method.undescribed, Method.inputName, Method.outputName]
    simp [Schema.claims, Schema.undescribed, ObjectType.undescribed, List.flatMap_map,
      Function.comp_def, hmethod]
  have hfold (claims : List (Role × String)) (e : Emitter) :
      claims.foldlM claim e.undescribed = (claims.foldlM claim e).map undescribed := by
    induction claims generalizing e with
    | nil => rfl
    | cons c rest ih =>
        have hclaim : claim e.undescribed c = (claim e c).map undescribed := by
          obtain ⟨role, name⟩ := c
          cases role <;> simp only [claim, map_bind] <;> rfl
        rw [List.foldlM_cons, List.foldlM_cons, hclaim, bind_map, map_bind]
        simp only [ih]
  rw [create, hclaims]
  exact hfold schema.claims (start language schema options)

/-! ## Members -/

/-- Typed fields are the same without descriptions, but for those they carry. -/
theorem typedFields_undescribed (e : Emitter) (owner : String) (scope : Scope)
    (fields : List Field) :
    e.undescribed.typedFields owner scope (fields.map Field.undescribed) =
      (e.typedFields owner scope fields).map
        (List.map fun (field, rest) => (field.undescribed, rest)) := by
  induction fields generalizing scope with
  | nil => rfl
  | cons field rest ih =>
      simp only [List.map_cons, typedFields, ih, map_bind, bind_map]
      congr! 2 with granted
      rw [undescribed, TypeSystem.expressField_undescribed]
      rfl

/-- Whether a summary can be written is no matter of the description. -/
theorem map_summaryOf_undescribed (e : Emitter) (identifier : String) (field : Field) :
    (orFail .json (e.undescribed.summaryOf identifier field.undescribed)).map (fun _ => ()) =
      (orFail .json (e.summaryOf identifier field)).map fun _ => () := by
  have hsentences : field.undescribed.constraintSentences = field.constraintSentences := rfl
  have hlanguage : e.undescribed.language = e.language := rfl
  have hsummary (member : String) :
      (orFail .json (field.undescribed.summary member)).map (fun _ => ()) =
        (orFail .json (field.summary member)).map fun _ => () := by
    rw [Field.summary, Field.summary, hsentences]
    cases field.constraintSentences <;> rfl
  rw [summaryOf, summaryOf, hlanguage]
  cases e.language with
  | go => exact hsummary identifier
  | rust => exact hsummary identifier
  | typescript => exact hsummary field.name
  | ruby => rfl

/-- Members are the same without descriptions, but for their comments. -/
theorem map_members_undescribed (e : Emitter) (owner : String) (fields : List Field) :
    (e.undescribed.members owner (fields.map Field.undescribed)).map (List.map Member.bare) =
      (e.members owner fields).map (List.map Member.bare) := by
  have hscope : e.undescribed.fieldScope owner = e.fieldScope owner := rfl
  rw [members, members, map_bind, map_bind, hscope, typedFields_undescribed]
  simp only [orFail, mapError_map, bind_map, List.mapM_map]
  congr! 2 with typed
  rw [← mapM_map, ← mapM_map]
  congr! 2 with ⟨field, identifier, type⟩
  exact map_bind_congr _ _ Member.bare (map_summaryOf_undescribed e identifier field)
    fun _ _ _ => rfl

/-! ## Declarations -/

theorem map_writable (e : Emitter) (d : Declaration) :
    (e.writable d).map Declaration.bare = e.writable d.bare := by
  have hrules : d.bare.rules.elim [] d.bare.ruled =
      (d.rules.elim [] d.ruled).map fun (m, steps) => (m.bare, steps) := by
    have hbare : d.bare.rules = d.rules.map Plan.undescribed := rfl
    rw [hbare]
    cases d.rules with
    | none => rfl
    | some plan => exact d.ruled_bare plan
  rw [writable, writable, hrules, map_bind, List.forM_eq_forM, List.forM_map]
  rfl

/-- Writing is settled by the bare declaration. -/
theorem map_writable_congr {d d' : Declaration} (h : d'.bare = d.bare) :
    (e.undescribed.writable d').map Declaration.bare = (e.writable d).map Declaration.bare := by
  rw [map_writable, map_writable, h]
  rfl

theorem map_typeDeclaration_undescribed (e : Emitter) (plans : Option Plans) (type : ObjectType) :
    (e.undescribed.typeDeclaration (plans.map Plans.undescribed) type.undescribed).map
        Declaration.bare =
      (e.typeDeclaration plans type).map Declaration.bare := by
  have hrules : ((plans.map Plans.undescribed).bind (·.lookup type.name)).map Plan.undescribed =
      (plans.bind (·.lookup type.name)).map Plan.undescribed := by
    cases plans with
    | none => rfl
    | some plans =>
        simp only [Option.map_some, Option.bind_some, Plans.lookup_undescribed, Option.map_map,
          Function.comp_def, Plan.undescribed_undescribed]
  refine map_bind_congr_right fun name => ?_
  refine map_bind_congr _ _ _ (map_members_undescribed e type.name type.properties) ?_
  intro members' members hmembers
  apply map_writable_congr
  simp only [Declaration.bare, hmembers]
  exact congrArg _ hrules

theorem inputRules_undescribed (e : Emitter) (method : Method) :
    e.undescribed.inputRules method.undescribed =
      (e.inputRules method).map (Option.map Plan.undescribed) := by
  have hplan : (e.undescribed.schema.inputPlan method.undescribed).outcome =
      (e.schema.inputPlan method).outcome.map Plan.undescribed :=
    e.schema.inputPlan_undescribed method
  have hoptions : e.undescribed.options = e.options := rfl
  rw [inputRules, inputRules, hoptions]
  split
  · rw [hplan]
    cases (e.schema.inputPlan method).outcome <;> rfl
  · rfl

theorem map_inputDeclaration_undescribed (e : Emitter) (method : Method) :
    (e.undescribed.inputDeclaration method.undescribed).outcome.map (List.map Declaration.bare) =
      (e.inputDeclaration method).outcome.map (List.map Declaration.bare) := by
  have hempty : method.undescribed.inputs.isEmpty = method.inputs.isEmpty := List.isEmpty_map
  rw [outcome_inputDeclaration, outcome_inputDeclaration, hempty]
  split
  · rfl
  · refine map_bind_congr_right fun name => ?_
    refine map_bind_congr _ _ _ (map_members_undescribed e _ method.inputs) ?_
    intro members' members hmembers
    rw [inputRules_undescribed, bind_map]
    refine map_bind_congr_right fun rules => ?_
    refine map_bind_congr _ _ _ (map_writable_congr ?_) fun d' d hd => ?_
    · simp only [Declaration.bare, hmembers, Option.map_map, Function.comp_def,
        Plan.undescribed_undescribed]
    · simp only [Except.map, hd, List.map_singleton]

theorem map_outputDeclaration_undescribed (e : Emitter) (method : Method) :
    (e.undescribed.outputDeclaration method.undescribed).map (List.map Declaration.bare) =
      (e.outputDeclaration method).map (List.map Declaration.bare) := by
  have hempty : method.undescribed.outputs.isEmpty = method.outputs.isEmpty := List.isEmpty_map
  rw [outputDeclaration, outputDeclaration, hempty]
  split
  · rfl
  · refine map_bind_congr_right fun name => ?_
    refine map_bind_congr _ _ _ (map_members_undescribed e _ method.outputs) ?_
    intro members' members hmembers
    simp only [Except.map, pure_eq_ok, List.map_singleton, Declaration.bare, hmembers]

theorem map_methodDeclarations_undescribed (e : Emitter) (methods : List Method) :
    (e.undescribed.methodDeclarations (methods.map Method.undescribed)).outcome.map
        (List.map Declaration.bare) =
      (e.methodDeclarations methods).outcome.map (List.map Declaration.bare) := by
  induction methods with
  | nil => rfl
  | cons method rest ih =>
      rw [List.map_cons, outcome_methodDeclarations_cons, outcome_methodDeclarations_cons]
      refine map_bind_congr _ _ _ (map_inputDeclaration_undescribed e method) ?_
      intro input' input hinput
      refine map_bind_congr _ _ _ (map_outputDeclaration_undescribed e method) ?_
      intro output' output houtput
      refine map_bind_congr _ _ _ ih fun more' more hmore => ?_
      simp only [Except.map, List.map_append, hinput, houtput, hmore]

theorem plans?_undescribed (e : Emitter) :
    e.undescribed.plans?.outcome = e.plans?.outcome.map (Option.map Plans.undescribed) := by
  have hplans : e.undescribed.schema.typePlans.outcome =
      e.schema.typePlans.outcome.map Plans.undescribed := e.schema.typePlans_undescribed
  have hoptions : e.undescribed.options = e.options := rfl
  rw [outcome_plans?, outcome_plans?, hoptions]
  split
  · rw [hplans]
    cases e.schema.typePlans.outcome <;> rfl
  · rfl

/-- The declarations of a schema are the same without descriptions, but for their comments. -/
theorem map_declarationOutlines_undescribed (e : Emitter) :
    e.undescribed.declarationOutlines.outcome.map (List.map Declaration.bare) =
      e.declarationOutlines.outcome.map (List.map Declaration.bare) := by
  rw [outcome_declarationOutlines, outcome_declarationOutlines, plans?_undescribed, bind_map]
  refine map_bind_congr_right fun plans => ?_
  have htypes : (e.undescribed.schema.types.mapM
      (e.undescribed.typeDeclaration (plans.map Plans.undescribed))).map
        (List.map Declaration.bare) =
      (e.schema.types.mapM (e.typeDeclaration plans)).map (List.map Declaration.bare) := by
    have hschema : e.undescribed.schema.types = e.schema.types.map ObjectType.undescribed := rfl
    rw [hschema, List.mapM_map, ← mapM_map, ← mapM_map]
    congr! 2 with type
    exact map_typeDeclaration_undescribed e plans type
  refine map_bind_congr _ _ _ htypes fun types' types htypes => ?_
  refine map_bind_congr _ _ _ (map_methodDeclarations_undescribed e e.schema.methods) ?_
  intro methods' methods hmethods
  simp only [Except.map, List.map_append, htypes, hmethods]

/-! ## Stubs -/

theorem map_parameter_undescribed (e : Emitter) (method : Method) (field : Field) :
    (e.undescribed.parameter method.undescribed field.undescribed).map Parameter.bare =
      (e.parameter method field).map Parameter.bare := by
  have hsentences : field.undescribed.constraintSentences = field.constraintSentences := rfl
  have htype : e.undescribed.language.typeSystem.expressField e.undescribed.schema
      (some method.undescribed.name) field.undescribed =
      e.language.typeSystem.expressField e.schema (some method.name) field :=
    TypeSystem.expressField_undescribed _ _ _ field
  rw [parameter, parameter, htype, hsentences]
  refine map_bind_congr_right fun type => ?_
  exact map_bind_congr_right fun sentences => rfl

theorem nameOf?_undescribed (e : Emitter) (fields : List Field) (name : String) :
    e.undescribed.nameOf? (fields.map Field.undescribed) name = e.nameOf? fields name := by
  rw [nameOf?, nameOf?, List.isEmpty_map]
  rfl

theorem map_stub_undescribed (e : Emitter) (method : Method) :
    (e.undescribed.stub method.undescribed).map Stub.bare = (e.stub method).map Stub.bare := by
  have hinput : e.undescribed.nameOf? method.undescribed.inputs method.undescribed.inputName =
      e.nameOf? method.inputs method.inputName := nameOf?_undescribed e method.inputs _
  have houtput : e.undescribed.nameOf? method.undescribed.outputs method.undescribed.outputName =
      e.nameOf? method.outputs method.outputName := nameOf?_undescribed e method.outputs _
  have hlanguage : e.undescribed.language = e.language := rfl
  rw [stub_eq_bind, stub_eq_bind, hinput, houtput, hlanguage]
  refine map_bind_congr_right fun function => ?_
  refine map_bind_congr_right fun input => ?_
  refine map_bind_congr_right fun output => ?_
  have hparameters : (if e.language == .ruby then
        method.undescribed.inputs.mapM (e.undescribed.parameter method.undescribed)
      else .ok []).map (List.map Parameter.bare) =
      (if e.language == .ruby then method.inputs.mapM (e.parameter method)
        else .ok []).map (List.map Parameter.bare) := by
    split
    · have hfields : method.undescribed.inputs = method.inputs.map Field.undescribed := rfl
      rw [hfields, List.mapM_map, ← mapM_map, ← mapM_map]
      congr! 2 with field
      exact map_parameter_undescribed e method field
    · rfl
  refine map_bind_congr _ _ _ hparameters fun parameters' parameters hparameters => ?_
  simp only [Except.map, Stub.bare, hparameters, Method.undescribed_undescribed]

/-- The stubs of a schema are the same without descriptions, but for their comments. -/
theorem map_stubs_undescribed (e : Emitter) :
    e.undescribed.stubs.map (List.map Stub.bare) = e.stubs.map (List.map Stub.bare) := by
  have hlanguage : e.undescribed.language = e.language := rfl
  have hmethods : e.undescribed.schema.methods = e.schema.methods.map Method.undescribed := rfl
  rw [stubs, stubs, hlanguage]
  split
  · rfl
  · rw [hmethods, List.mapM_map, ← mapM_map, ← mapM_map]
    congr! 2 with method
    exact map_stub_undescribed e method

/-! ## The whole outline -/

/-- **The undescribed schema settles the bare outline, and the error without one.** -/
theorem map_outline_undescribed (e : Emitter) :
    e.undescribed.outline.outcome.map Outline.bare = e.outline.outcome.map Outline.bare := by
  have hoptions : e.undescribed.options = e.options := rfl
  rw [outcome_outline, outcome_outline, hoptions]
  have hdeclarations : (if e.options.includeTypes then e.undescribed.declarationOutlines.outcome
        else .ok []).map (List.map Declaration.bare) =
      (if e.options.includeTypes then e.declarationOutlines.outcome else .ok []).map
        (List.map Declaration.bare) := by
    split
    · exact map_declarationOutlines_undescribed e
    · rfl
  have hstubs : (if e.options.includeClient then e.undescribed.stubs else .ok []).map
        (List.map Stub.bare) =
      (if e.options.includeClient then e.stubs else .ok []).map (List.map Stub.bare) := by
    split
    · exact map_stubs_undescribed e
    · rfl
  refine map_bind_congr _ _ _ hdeclarations fun ds' ds hds => ?_
  refine map_bind_congr _ _ _ hstubs fun stubs' stubs hstubs => ?_
  simp only [Except.map, Outline.bare, hds, hstubs]

end Emitter

end RpcBindings
