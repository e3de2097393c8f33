import RpcBindings.Proofs.Validation.Plans

/-!
# RpcBindings.Proofs.Validation.Synthesis

Plans lose nothing of what fields declare.  The steps that a field asks for are told by its
declaration alone (`Field.Asks`), and so is what becomes of its default: a step, or else one
notice (`Field.Notes`).  A plan has all steps that its fields ask for and no others; none is
made where an array asks for elements of a type that is not declared, and then the first such
field is named, and the notices up to it stay (`planOf_loses_nothing`).
-/

namespace RpcBindings

/-! ## What a field declares -/

/-- The place of a step among the steps of its field. -/
def Step.rank : Step → Nat
  | .default _ => 0
  | .required => 1
  | .oneOf _ => 2
  | .elements _ => 3

/-- The steps that a field asks for. -/
inductive Field.Asks (field : Field) : Step → Prop where
  | int {i : Int} : field.type.kind = .int → field.default = .int i →
      Asks field (.default (.int i))
  | text {s : String} : field.type.kind = .string → field.default = .text s →
      Asks field (.default (.text s))
  | required : field.required = true →
      field.type.kind ∈ [Kind.int, .float, .string, .timestamp, .array, .object] →
      Asks field .required
  | oneOf {allowed : List String} : field.type.kind = .string → field.enum = some allowed →
      allowed ≠ [] → Asks field (.oneOf allowed)
  | elements {items : Descriptor} {target : String} : field.type.kind = .array →
      field.type.items? = some items → items.target? = some target →
      Asks field (.elements target)

/-- A notice that the default of a field is ignored: a warning where fields of its kind can have
one. -/
inductive Notice.Reports (owner : String) (field : Field) (notice : Notice) : Prop where
  | warning : field.type.kind = .int ∨ field.type.kind = .string → notice.level = .warning →
      notice.text =
        s!"{owner}.{field.name}: default {field.default.display} does not match type " ++
          s!"{field.type.kind.name}, ignored" →
      Reports owner field notice
  | debug : field.type.kind ≠ .int → field.type.kind ≠ .string → notice.level = .debug →
      notice.text =
        s!"{owner}.{field.name}: defaults are not supported for {field.type.kind.name}" ++
          " fields, ignored" →
      Reports owner field notice

/-- The notices that the default of a field gives rise to. -/
inductive Field.Notes (owner : String) (field : Field) : List Notice → Prop where
  | absent : field.default = .null → Notes owner field []
  | substituted {d : DefaultValue} : field.Asks (.default d) → Notes owner field []
  | ignored {notice : Notice} : field.default ≠ .null → (∀ d, ¬ field.Asks (.default d)) →
      Notice.Reports owner field notice → Notes owner field [notice]

/-- What becomes of a field: the steps that it asks for in their order, each once, and the
notices about its default. -/
structure Field.Yields (owner : String) (field : Field) (steps : List Step)
    (notices : List Notice) : Prop where
  mem_iff : ∀ step, step ∈ steps ↔ field.Asks step
  ordered : (steps.map Step.rank).Pairwise (· < ·)
  notes : field.Notes owner notices
  /-- A default is either substituted or reported, once. -/
  once : field.default ≠ .null →
    (∃! d, .default d ∈ steps) ∧ notices = [] ∨
      (∀ d, .default d ∉ steps) ∧ ∃ notice, notices = [notice]

namespace Schema

variable {schema : Schema} {owner name : String} {field : Field} {fields : List Field}
  {steps : List Step} {rules : List FieldRules} {e : UnresolvedReference}

/-- An array field asks for elements of a type that is not declared. -/
def Strays (schema : Schema) (field : Field) : Prop :=
  ∃ target, field.Asks (.elements target) ∧ schema.findType? target = none

/-! ## One field -/

/-- A field asks for a default exactly where it has one that fits. -/
theorem asks_default_iff {d : DefaultValue} :
    field.Asks (.default d) ↔ defaultOf field = some d := by
  constructor
  · intro h
    cases h with
    | int hkind hdefault => simp [defaultOf, hkind, hdefault]
    | text hkind hdefault => simp [defaultOf, hkind, hdefault]
  · intro h
    unfold defaultOf at h
    split at h
    · next hkind hdefault =>
      obtain rfl := Option.some.inj h
      exact .int hkind hdefault
    · next hkind hdefault =>
      obtain rfl := Option.some.inj h
      exact .text hkind hdefault
    · contradiction

/-- A field asks for its presence exactly where it is required and of a kind that is checked. -/
theorem asks_required_iff :
    field.Asks .required ↔ (field.required && field.type.kind.isChecked) = true := by
  have hkinds : field.type.kind ∈ [Kind.int, .float, .string, .timestamp, .array, .object] ↔
      field.type.kind.isChecked = true := by
    cases field.type.kind <;> decide
  rw [Bool.and_eq_true, ← hkinds]
  constructor
  · intro h
    cases h with
    | required hrequired hkind => exact ⟨hrequired, hkind⟩
  · rintro ⟨hrequired, hkind⟩
    exact .required hrequired hkind

/-- A field asks for one of its members exactly where there is a step for it. -/
theorem asks_oneOf_iff {allowed : List String} :
    field.Asks (.oneOf allowed) ↔ .oneOf allowed ∈ enumStep field := by
  constructor
  · intro h
    cases h with
    | oneOf hkind henum hne =>
        cases allowed with
        | nil => contradiction
        | cons first rest => simp [enumStep, hkind, henum]
  · intro h
    unfold enumStep at h
    split at h
    · next first rest hkind henum =>
      obtain rfl := Step.oneOf.inj (List.mem_singleton.1 h)
      exact .oneOf hkind henum (List.cons_ne_nil first rest)
    · contradiction

/-- A field asks for its elements exactly where they are references. -/
theorem asks_elements_iff {target : String} :
    field.Asks (.elements target) ↔ elementTarget? field = some target := by
  unfold elementTarget?
  constructor
  · intro h
    cases h with
    | elements hkind hitems htarget =>
        cases htype : field.type with
        | plain kind own => simp [htype, Descriptor.items?] at hitems
        | nested kind own items =>
            simp only [htype, Descriptor.kind, Descriptor.items?, Option.some.injEq] at hkind hitems
            subst hkind hitems
            exact htarget
  · intro h
    split at h
    · next own items htype => exact .elements (by rw [htype]; rfl) (by rw [htype]; rfl) h
    · contradiction

/-- **A field has the steps that it asks for.** -/
theorem mem_fieldSteps_iff (h : schema.fieldSteps owner field = .ok steps) (step : Step) :
    step ∈ steps ↔ field.Asks step := by
  cases step with
  | default d => rw [default_mem_fieldSteps_iff h, asks_default_iff]
  | required =>
      have henum : .required ∉ enumStep field := by
        unfold enumStep
        split <;> simp
      rw [mem_fieldSteps_iff_mem_ownSteps h (by simp), asks_required_iff]
      simp [ownSteps, henum]
  | oneOf allowed =>
      rw [mem_fieldSteps_iff_mem_ownSteps h (by simp), asks_oneOf_iff]
      simp [ownSteps]
  | elements target =>
      rw [elements_mem_fieldSteps_iff h, asks_elements_iff]
      obtain ⟨elements, helements, -⟩ := fieldSteps_eq_ok_iff.1 h
      obtain ⟨htarget, -⟩ | ⟨type, htype, -⟩ := elementStep_eq_ok_iff.1 helements
      · simp [elementType?, htarget]
      · obtain ⟨found, htarget, hfound⟩ := Option.bind_eq_some_iff.1 htype
        obtain ⟨-, rfl⟩ := mem_types_of_findType? hfound
        simp [htype, htarget, @eq_comm _ target]

/-- The steps of a field fail exactly with the element type that is asked for and not declared. -/
theorem fieldSteps_eq_error_iff :
    schema.fieldSteps owner field = .error e ↔
      ∃ target, field.Asks (.elements target) ∧ schema.findType? target = none ∧
        e = ⟨some s!"{owner}.{field.name}", target⟩ := by
  have hlast : schema.fieldSteps owner field = .error e ↔
      schema.elementStep owner field = .error e := by
    unfold fieldSteps
    rw [bind_eq_error_iff]
    simp
  simp only [hlast, asks_elements_iff]
  unfold elementStep resolve
  cases elementTarget? field with
  | none => simp
  | some target => cases hfound : schema.findType? target <;> simp [hfound, eq_comm]

/-- A field has steps exactly where it does not stray. -/
theorem not_strays_iff (owner : String) :
    ¬ schema.Strays field ↔ ∃ steps, schema.fieldSteps owner field = .ok steps := by
  have herror : schema.Strays field ↔ ∃ e, schema.fieldSteps owner field = .error e := by
    simp only [fieldSteps_eq_error_iff]
    constructor
    · rintro ⟨target, hasks, hfound⟩
      exact ⟨_, target, hasks, hfound, rfl⟩
    · rintro ⟨-, target, hasks, hfound, -⟩
      exact ⟨target, hasks, hfound⟩
  rw [herror, exists_eq_error_iff, not_not]

/-- The steps of a field are in the order of their ranks, with none repeated. -/
theorem map_rank_sublist (h : schema.fieldSteps owner field = .ok steps) :
    (steps.map Step.rank).Sublist [0, 1, 2, 3] := by
  obtain ⟨elements, helements, rfl⟩ := fieldSteps_eq_ok_iff.1 h
  have hdefault : (((defaultOf field).toList.map Step.default).map Step.rank).Sublist [0] := by
    cases defaultOf field <;> simp [Step.rank]
  have hrequired : ((if field.required && field.type.kind.isChecked then [Step.required]
      else []).map Step.rank).Sublist [1] := by
    split <;> simp [Step.rank]
  have henum : ((enumStep field).map Step.rank).Sublist [2] := by
    unfold enumStep
    split <;> simp [Step.rank]
  have hlast : (elements.map Step.rank).Sublist [3] := by
    obtain ⟨-, rfl⟩ | ⟨type, -, rfl⟩ := elementStep_eq_ok_iff.1 helements <;> simp [Step.rank]
  simp only [ownSteps, List.map_append]
  exact ((hdefault.append hrequired).append henum).append hlast

/-- The notice on a default is one that the field calls for. -/
theorem notes_defaultNotice (owner : String) (field : Field) :
    field.Notes owner (defaultNotice owner field).toList := by
  unfold defaultNotice
  split
  · next hnull => exact .absent hnull
  · next d hdefault _ => exact .substituted (asks_default_iff.2 hdefault)
  · next hdefault hnull =>
    have hasks : ∀ d, ¬ field.Asks (.default d) := by simp [asks_default_iff, hdefault]
    have htext : (Notice.mismatchedDefault owner field.name field.default field.type.kind).text =
        s!"{owner}.{field.name}: default {field.default.display} does not match type " ++
          s!"{field.type.kind.name}, ignored" := by
      simp [Notice.text, String.append_assoc]
    split
    · next hkind => exact .ignored hnull hasks (.warning (.inl hkind) rfl htext)
    · next hkind => exact .ignored hnull hasks (.warning (.inr hkind) rfl htext)
    · next hint hstring => exact .ignored hnull hasks (.debug hint hstring rfl rfl)

/-- A default that no step substitutes is reported, and no other. -/
theorem once_of_notes {notices : List Notice} (h : field.Notes owner notices)
    (hsteps : ∀ step, step ∈ steps ↔ field.Asks step) (hnull : field.default ≠ .null) :
    (∃! d, .default d ∈ steps) ∧ notices = [] ∨
      (∀ d, .default d ∉ steps) ∧ ∃ notice, notices = [notice] := by
  simp only [hsteps]
  cases h with
  | absent hdefault => exact absurd hdefault hnull
  | @substituted d hasks =>
      refine .inl ⟨⟨d, hasks, fun other hother => ?_⟩, rfl⟩
      rw [asks_default_iff] at hasks hother
      exact Option.some.inj (hother.symm.trans hasks)
  | ignored _ hasks _ => exact .inr ⟨hasks, _, rfl⟩

/-- **What becomes of a field.** -/
theorem yields_fieldSteps (h : schema.fieldSteps owner field = .ok steps) :
    field.Yields owner steps (defaultNotice owner field).toList where
  mem_iff := mem_fieldSteps_iff h
  ordered := List.Pairwise.sublist (map_rank_sublist h) (by decide)
  notes := notes_defaultNotice owner field
  once := once_of_notes (notes_defaultNotice owner field) (mem_fieldSteps_iff h)

/-! ## Field lists -/

/-- The notices of fields are that of the first, where it has steps, and those of the rest. -/
theorem notices_rulesOf_of_ok (h : schema.fieldSteps owner field = .ok steps) :
    (schema.rulesOf owner (field :: fields)).notices =
      (defaultNotice owner field).toList ++ (schema.rulesOf owner fields).notices := by
  rw [rulesOf, h]
  simp [Noted.notices_bind, Noted.note, Noted.lift, Except.toOption]

/-- The notices end with the field that has no steps. -/
theorem notices_rulesOf_of_error (h : schema.fieldSteps owner field = .error e) :
    (schema.rulesOf owner (field :: fields)).notices = (defaultNotice owner field).toList := by
  rw [rulesOf, h]
  simp [Noted.notices_bind, Noted.note, Noted.lift, Except.toOption]

/-- The first field without steps decides the error. -/
theorem rulesOf_cons_eq_error_iff :
    (schema.rulesOf owner (field :: fields)).outcome = .error e ↔
      schema.fieldSteps owner field = .error e ∨
        (∃ steps, schema.fieldSteps owner field = .ok steps) ∧
          (schema.rulesOf owner fields).outcome = .error e := by
  rw [rulesOf]
  simp only [Noted.outcome_bind, Noted.outcome_note, ok_bind, Noted.outcome_lift,
    bind_eq_error_iff, Noted.outcome_pure]
  simp

/-- A plan is made of what becomes of its fields. -/
theorem exists_yields_of_rulesOf (h : (schema.rulesOf owner fields).outcome = .ok rules) :
    ∃ each : List (List Step × List Notice),
      List.Forall₂ (fun field yielded => field.Yields owner yielded.1 yielded.2) fields each ∧
        rules = (List.zipWith (fun field yielded => ⟨field, yielded.1⟩) fields each).filter
          (!·.steps.isEmpty) ∧
        (schema.rulesOf owner fields).notices = each.flatMap (·.2) := by
  induction fields generalizing rules with
  | nil =>
      obtain rfl : rules = [] := by simpa [rulesOf, eq_comm] using h
      exact ⟨[], .nil, rfl, rfl⟩
  | cons field fields ih =>
      obtain ⟨steps, hsteps, more, hmore, rfl⟩ := rulesOf_cons_eq_ok_iff.1 h
      obtain ⟨each, heach, rfl, hnotices⟩ := ih hmore
      refine ⟨(steps, (defaultNotice owner field).toList) :: each,
        .cons (yields_fieldSteps hsteps) heach, ?_, ?_⟩
      · cases steps <;> rfl
      · rw [notices_rulesOf_of_ok hsteps, hnotices, List.flatMap_cons]

/-- It is not made if a field strays; the notices are those of the fields up to the first that
does. -/
theorem exists_strays_of_rulesOf (h : (schema.rulesOf owner fields).outcome = .error e) :
    ∃ before field after target, fields = before ++ field :: after ∧
      (∀ other ∈ before, ¬ schema.Strays other) ∧
      field.Asks (.elements target) ∧ schema.findType? target = none ∧
      e = ⟨some s!"{owner}.{field.name}", target⟩ ∧
      ∃ each, List.Forall₂ (Field.Notes owner) (before ++ [field]) each ∧
        (schema.rulesOf owner fields).notices = each.flatten := by
  induction fields with
  | nil => contradiction
  | cons field fields ih =>
      obtain herror | ⟨⟨steps, hsteps⟩, hrest⟩ := rulesOf_cons_eq_error_iff.1 h
      · obtain ⟨target, hasks, hfound, rfl⟩ := fieldSteps_eq_error_iff.1 herror
        refine ⟨[], field, fields, target, rfl, by simp, hasks, hfound, rfl,
          [(defaultNotice owner field).toList], .cons (notes_defaultNotice owner field) .nil, ?_⟩
        rw [notices_rulesOf_of_error herror, List.flatten_singleton]
      · obtain ⟨before, stray, after, target, rfl, hbefore, hasks, hfound, rfl, each, heach,
          hnotices⟩ := ih hrest
        have hfield := (not_strays_iff owner).2 ⟨steps, hsteps⟩
        refine ⟨field :: before, stray, after, target, rfl,
          List.forall_mem_cons.2 ⟨hfield, hbefore⟩, hasks, hfound, rfl,
          (defaultNotice owner field).toList :: each,
          .cons (notes_defaultNotice owner field) heach, ?_⟩
        rw [notices_rulesOf_of_ok hsteps, hnotices, List.flatten_cons]

/-- Fields have rules exactly where none of them strays. -/
theorem exists_rulesOf_eq_ok_iff :
    (∃ rules, (schema.rulesOf owner fields).outcome = .ok rules) ↔
      ∀ field ∈ fields, ¬ schema.Strays field := by
  induction fields with
  | nil => simp [rulesOf]
  | cons field fields ih =>
      rw [List.forall_mem_cons, ← ih, not_strays_iff owner]
      simp only [rulesOf_cons_eq_ok_iff]
      constructor
      · rintro ⟨rules, steps, hsteps, more, hmore, rfl⟩
        exact ⟨⟨steps, hsteps⟩, more, hmore⟩
      · rintro ⟨⟨steps, hsteps⟩, more, hmore⟩
        exact ⟨_, steps, hsteps, more, hmore, rfl⟩

/-! ## Plans -/

theorem notices_planOf (schema : Schema) (name : String) (fields : List Field) :
    (schema.planOf name fields).notices = (schema.rulesOf name fields).notices := by
  rw [planOf]
  simp

/-- A plan fails exactly as the rules of its fields do. -/
theorem planOf_eq_error_iff :
    (schema.planOf name fields).outcome = .error e ↔
      (schema.rulesOf name fields).outcome = .error e := by
  rw [planOf]
  simp [map_eq_error_iff]

/-- **Plans lose no constraint.**  No plan is made for a field list if and only if an array field
asks for elements of a type that is not declared; the first such field is named, and the notices
up to it stay.  Otherwise the plan has, in their order, the fields that ask for a step, each with
just the steps it asks for, in order and once; and each default is substituted or reported. -/
theorem planOf_loses_nothing (schema : Schema) (name : String) (fields : List Field) :
    ((∃ e, (schema.planOf name fields).outcome = .error e) ↔
        ∃ field ∈ fields, schema.Strays field) ∧
      (∀ e, (schema.planOf name fields).outcome = .error e →
        ∃ before field after target, fields = before ++ field :: after ∧
          (∀ other ∈ before, ¬ schema.Strays other) ∧
          field.Asks (.elements target) ∧ schema.findType? target = none ∧
          e = ⟨some s!"{name}.{field.name}", target⟩ ∧
          ∃ each, List.Forall₂ (Field.Notes name) (before ++ [field]) each ∧
            (schema.planOf name fields).notices = each.flatten) ∧
      ∀ plan, (schema.planOf name fields).outcome = .ok plan →
        plan.name = name ∧
          ∃ each : List (List Step × List Notice),
            List.Forall₂ (fun field yielded => field.Yields name yielded.1 yielded.2)
              fields each ∧
            plan.fields = (List.zipWith (fun field yielded => ⟨field, yielded.1⟩)
              fields each).filter (!·.steps.isEmpty) ∧
            (schema.planOf name fields).notices = each.flatMap (·.2) := by
  rw [notices_planOf]
  refine ⟨?_, ?_, ?_⟩
  · simp only [planOf_eq_error_iff, exists_eq_error_iff, exists_rulesOf_eq_ok_iff]
    simp
  · intro e h
    exact exists_strays_of_rulesOf (planOf_eq_error_iff.1 h)
  · intro plan h
    obtain ⟨rules, hrules, rfl⟩ := planOf_eq_ok_iff.1 h
    exact ⟨rfl, exists_yields_of_rulesOf hrules⟩

/-- A size whose default is a truth value, a list of nodes, and a list of a type that the trees do
not have. -/
def clearing : List Field := [
  { name := "size", type := .primitive .int, description := "", required := false
    default := .bool true, enum := none },
  { name := "nodes", type := .array (.reference "Node"), description := "", required := true
    default := .null, enum := none },
  { name := "paths", type := .array (.reference "Path"), description := "", required := false
    default := .null, enum := none }]

/-- The paths are named, and the default of the size was reported before them; without the paths,
the nodes alone are in the plan. -/
theorem clearing_planOf_loses_nothing :
    (∃ field ∈ clearing, trees.Strays field) ∧
      (∃ before field after target, clearing = before ++ field :: after ∧
        (∀ other ∈ before, ¬ trees.Strays other) ∧
        field.Asks (.elements target) ∧ trees.findType? target = none ∧
        (⟨some "clearing.paths", "Path"⟩ : UnresolvedReference) =
          ⟨some s!"clearing.{field.name}", target⟩ ∧
        ∃ each, List.Forall₂ (Field.Notes "clearing") (before ++ [field]) each ∧
          (trees.planOf "clearing" clearing).notices = each.flatten) ∧
      ∃ plan, (trees.planOf "clearing" (clearing.take 2)).outcome = .ok plan ∧
        plan.fields.map (·.field.name) = ["nodes"] ∧
        ∃ each : List (List Step × List Notice),
          List.Forall₂ (fun field yielded => field.Yields "clearing" yielded.1 yielded.2)
            (clearing.take 2) each ∧
          (trees.planOf "clearing" (clearing.take 2)).notices = each.flatMap (·.2) := by
  have herror : (trees.planOf "clearing" clearing).outcome =
      .error ⟨some "clearing.paths", "Path"⟩ := rfl
  have hrun : ∃ plan, (trees.planOf "clearing" (clearing.take 2)).outcome = .ok plan ∧
      plan.fields.map (·.field.name) = ["nodes"] := ⟨_, rfl, rfl⟩
  obtain ⟨hstrays, hnamed, -⟩ := trees.planOf_loses_nothing "clearing" clearing
  refine ⟨hstrays.1 ⟨_, herror⟩, hnamed _ herror, ?_⟩
  obtain ⟨plan, hplan, hnames⟩ := hrun
  obtain ⟨-, -, hmade⟩ := trees.planOf_loses_nothing "clearing" (clearing.take 2)
  obtain ⟨-, each, heach, -, hnotices⟩ := hmade plan hplan
  exact ⟨plan, hplan, hnames, each, heach, hnotices⟩

/-- A truth value is no whole number. -/
example : (trees.planOf "clearing" clearing).notices.map (fun notice =>
    (notice.level, notice.text)) =
      [(.warning, "clearing.size: default True does not match type int, ignored")] := by
  rfl

end Schema

end RpcBindings
