import RpcBindings.Emission.Outline
import RpcBindings.Proofs.Outcome

/-!
# RpcBindings.Proofs.Emission.Steps

The steps that an outline is made in.  Outlines are put together with notices on the way and with
names for what may be absent; what comes of them depends on the outcomes of their steps alone, taken
in order.  There is one equation here for each part of an outline that says so, and what is said
elsewhere of an outline goes along these equations, not along the definitions.
-/

namespace RpcBindings

namespace Emitter

variable {e : Emitter} {fields : List Field} {name : String}

/-! ## Names -/

theorem orNaming_eq_ok_iff {α : Type} {outcome : Except NamingError α} {a : α} :
    orNaming outcome = .ok a ↔ outcome = .ok a :=
  mapError_eq_ok_iff

/-- The identifier under which some fields are declared, if there are any. -/
def nameOf? (e : Emitter) (fields : List Field) (name : String) :
    Except EmissionError (Option String) :=
  if fields.isEmpty then .ok none else some <$> orNaming (e.declarationName name)

/-- An identifier is there just where there are fields, and it is the one of the name. -/
theorem nameOf?_eq_ok_iff {found : Option String} :
    e.nameOf? fields name = .ok found ↔
      (found.isSome ↔ fields ≠ []) ∧
        ∀ identifier, found = some identifier → e.declarationName name = .ok identifier := by
  cases fields with
  | nil => cases found <;> simp [nameOf?]
  | cons field rest =>
      have hnamed : e.nameOf? (field :: rest) name =
          (orNaming (e.declarationName name)).map some := rfl
      rw [hnamed, map_eq_ok_iff]
      cases found <;> simp [orNaming_eq_ok_iff]

/-! ## Declarations -/

/-- Writing a declaration changes nothing about it. -/
theorem eq_of_writable {d d' : Declaration} (h : e.writable d = .ok d') : d' = d := by
  simp only [writable, bind_eq_ok_iff, pure_eq_ok, Except.ok.injEq] at h
  obtain ⟨-, -, heq⟩ := h
  exact heq.symm

/-- The plan that the declaration of an input is validated by, if validation is written. -/
def inputRules (e : Emitter) (method : Method) : Except EmissionError (Option Plan) :=
  if e.options.validate then
    ((e.schema.inputPlan method).outcome.mapError fun e => .generation (.unresolved e)).map some
  else .ok none

/-- The declaration of an input is made of its name, then its members, then its validation. -/
theorem outcome_inputDeclaration (e : Emitter) (method : Method) :
    (e.inputDeclaration method).outcome =
      if method.inputs.isEmpty then .ok []
      else
        orNaming (e.declarationName method.inputName) >>= fun name =>
        e.members s!"{method.name} input" method.inputs >>= fun members =>
        e.inputRules method >>= fun rules =>
        e.writable { name, role := .input, members, rules } >>= fun d => .ok [d] := by
  unfold inputDeclaration inputRules
  cases method.inputs.isEmpty <;> cases e.options.validate <;>
    simp only [Bool.false_eq_true, if_true, if_false, Noted.outcome_bind, Noted.outcome_lift,
      Noted.outcome_map, Noted.outcome_mapError, Noted.outcome_pure, ok_bind]

/-- The declarations of a method stand before those of the next. -/
theorem outcome_methodDeclarations_cons (e : Emitter) (method : Method) (rest : List Method) :
    (e.methodDeclarations (method :: rest)).outcome =
      (e.inputDeclaration method).outcome >>= fun input =>
        e.outputDeclaration method >>= fun output =>
        (e.methodDeclarations rest).outcome >>= fun more => .ok (input ++ output ++ more) := by
  rw [methodDeclarations]
  simp only [Noted.outcome_bind, Noted.outcome_lift, Noted.outcome_pure]

/-- There are plans exactly where validation is asked for. -/
theorem outcome_plans? (e : Emitter) :
    e.plans?.outcome =
      if e.options.validate then
        (e.schema.typePlans.outcome.mapError fun e => .generation (.unresolved e)).map some
      else .ok none := by
  unfold plans?
  split
  · rw [Noted.outcome_map, Noted.outcome_mapError]
  · rfl

/-- All plans are made first; then types are declared, then inputs and outputs. -/
theorem outcome_declarationOutlines (e : Emitter) :
    e.declarationOutlines.outcome =
      e.plans?.outcome >>= fun plans =>
        e.schema.types.mapM (e.typeDeclaration plans) >>= fun types =>
        (e.methodDeclarations e.schema.methods).outcome >>= fun methods =>
        .ok (types ++ methods) := by
  unfold declarationOutlines
  simp only [Noted.outcome_bind, Noted.outcome_lift, Noted.outcome_pure]

/-! ## Stubs -/

/-- A stub is made of its names in order, then of its documented parameters. -/
theorem stub_eq_bind (e : Emitter) (method : Method) :
    e.stub method =
      orNaming (e.methodName method.name) >>= fun function =>
        e.nameOf? method.inputs method.inputName >>= fun input =>
        e.nameOf? method.outputs method.outputName >>= fun output =>
        (if e.language == .ruby then method.inputs.mapM (e.parameter method)
          else .ok []) >>= fun parameters =>
        .ok { function, method, input, output, parameters } := by
  unfold stub nameOf?
  cases method.inputs.isEmpty <;> cases method.outputs.isEmpty <;>
    cases e.language == .ruby <;> rfl

/-! ## The whole outline -/

/-- An outline is made of its declarations, then of its stubs. -/
theorem outcome_outline (e : Emitter) :
    e.outline.outcome =
      (if e.options.includeTypes then e.declarationOutlines.outcome else .ok []) >>= fun ds =>
        (if e.options.includeClient then e.stubs else .ok []) >>= fun stubs => .ok ⟨ds, stubs⟩ := by
  unfold Emitter.outline
  cases e.options.includeTypes <;> cases e.options.includeClient <;>
    simp only [Bool.false_eq_true, if_true, if_false, Noted.outcome_bind, Noted.outcome_lift,
      Noted.outcome_pure, ok_bind]

/-- An outline has the declarations and the stubs that its options ask for. -/
theorem outline_eq_ok {outline : Outline} (h : e.outline.outcome = .ok outline) :
    (if e.options.includeTypes then e.declarationOutlines.outcome else .ok []) =
        .ok outline.declarations ∧
      (if e.options.includeClient then e.stubs else .ok []) = .ok outline.stubs := by
  simp only [outcome_outline, bind_eq_ok_iff, Except.ok.injEq] at h
  obtain ⟨declarations, hdeclarations, stubs, hstubs, rfl⟩ := h
  exact ⟨hdeclarations, hstubs⟩

end Emitter

end RpcBindings
