import RpcBindings.Proofs.Validation.Acceptance

/-!
# RpcBindings.Proofs.Validation.FirstFailure

Which failure is reported.  A message that validation gives back is that of the
first field that fails, of its first step that fails, and of the first element
that fails where this is the step for the elements; all of it is decided by the
values that the payload had in the beginning.  So a message is a chain of
indices, each of them that of an element which is there, followed by the message
of a field of the type that is reached along the chain.
-/

namespace RpcBindings

/-! ## Passing and failing -/

namespace Plan

/-- An item that is a mapping with which the plan finds nothing wrong. -/
def Validates (plans : Plans) (plan : Plan) (item : Value) : Prop :=
  ∃ entries, item = .map entries ∧ (plan.evaluate plans entries).1 = .ok none

/-- An item that is a mapping about which the plan has a message. -/
def Reports (plans : Plans) (plan : Plan) (message : String) (item : Value) : Prop :=
  ∃ entries, item = .map entries ∧ (plan.evaluate plans entries).1 = .ok (some message)

end Plan

namespace Step

/-- A step that finds nothing wrong with the value of a field. -/
def Passes (plans : Plans) (field : Field) (value : Value) : Step → Prop
  | .default _ => True
  | .required => value.isZero field.type.kind = false
  | .oneOf allowed => value.isAllowed allowed = true
  | .elements type => ∃ child, plans.lookup type = some child ∧
      (value.isTruthy = false ∨
        ∃ items, value.items? = some items ∧ ∀ item ∈ items, child.Validates plans item)

/-- A step that has a message about the value of a field.  About the elements it
has that of the first one that is not in order. -/
def Fails (plans : Plans) (field : Field) (value : Value) (message : String) : Step → Prop
  | .default _ => False
  | .required =>
      value.isZero field.type.kind = true ∧ message = fieldMessage field.name requiredMessage
  | .oneOf allowed =>
      value.isAllowed allowed = false ∧ message = fieldMessage field.name (enumMessage allowed)
  | .elements type => ∃ child, plans.lookup type = some child ∧
      ∃ before item after below, value.items? = some (before ++ item :: after) ∧
        (∀ earlier ∈ before, child.Validates plans earlier) ∧ child.Reports plans below item ∧
        message = elementMessage before.length below

end Step

namespace FieldRules

/-- The value that the checks of a field are about. -/
def value (rules : FieldRules) (payload : Entries) : Value :=
  rules.field.effective (Entries.get payload rules.field.name)

/-- A field with the value of which no step finds anything wrong. -/
def Passes (plans : Plans) (payload : Entries) (rules : FieldRules) : Prop :=
  ∀ step ∈ rules.steps, step.Passes plans rules.field (rules.value payload)

/-- A field that has a message: that of its first step that does not pass. -/
def Fails (plans : Plans) (payload : Entries) (message : String) (rules : FieldRules) : Prop :=
  ∃ before step after, rules.steps = before ++ step :: after ∧
    (∀ earlier ∈ before, earlier.Passes plans rules.field (rules.value payload)) ∧
    step.Fails plans rules.field (rules.value payload) message

end FieldRules

namespace Evaluation

variable {plans : Plans} {schema : Schema} {owner message : String} {field : Field}
  {steps : List Step}

/-! ## The first failure in a list -/

/-- A member of a list is its first one or one of the others. -/
theorem exists_eq_append_cons_iff {α : Type} {first : α} {rest : List α}
    {P : List α → α → Prop} :
    (∃ before member after, first :: rest = before ++ member :: after ∧ P before member) ↔
      P [] first ∨
        ∃ before member after, rest = before ++ member :: after ∧ P (first :: before) member := by
  constructor
  · rintro ⟨before, member, after, hsplit, h⟩
    obtain ⟨rfl, hfirst⟩ | ⟨before', rfl, hrest⟩ := List.cons_eq_append_iff.1 hsplit
    · cases hfirst
      exact .inl h
    · exact .inr ⟨before', member, after, hrest, h⟩
  · rintro (h | ⟨before, member, after, rfl, h⟩)
    · exact ⟨[], first, rest, rfl, h⟩
    · exact ⟨first :: before, member, after, rfl, h⟩

@[simp] theorem firstFailure_singleton (verdict : Verdict) : firstFailure [verdict] = verdict := by
  obtain e | _ | message := verdict <;> rfl

/-- The first failure of two lists is the one of the first list, or else of the second. -/
theorem firstFailure_append (first rest : List Verdict) :
    firstFailure (first ++ rest) =
      match firstFailure first with
      | .ok none => firstFailure rest
      | verdict => verdict := by
  induction first with
  | nil => rfl
  | cons verdict first ih => obtain e | _ | message := verdict <;> simp [firstFailure, ih]

/-- The first message is that of a member before which none fails. -/
theorem firstFailure_map_eq_some_iff {α : Type} {f : α → Verdict} {members : List α} :
    firstFailure (members.map f) = .ok (some message) ↔
      ∃ before member after, members = before ++ member :: after ∧
        (∀ earlier ∈ before, f earlier = .ok none) ∧ f member = .ok (some message) := by
  induction members with
  | nil => simp [firstFailure]
  | cons first rest ih =>
      rw [List.map_cons, exists_eq_append_cons_iff]
      simp only [List.forall_mem_cons]
      rcases hfirst : f first with e | _ | own
      · simp [firstFailure]
      · simp [firstFailure, ih]
      · simp [firstFailure]

/-- The message about some elements is that about the first which is not in order. -/
theorem runElements_eq_some_iff (child : Evaluation) (field : String) (index : Nat)
    (items : List Value) (message : String) :
    (runElements child field index items).1 = .ok (some message) ↔
      ∃ before item after, items = before ++ item :: after ∧
        (∀ earlier ∈ before, ∃ entries, earlier = .map entries ∧ (child entries).1 = .ok none) ∧
        ∃ below, (∃ entries, item = .map entries ∧ (child entries).1 = .ok (some below)) ∧
          message = elementMessage (index + before.length) below := by
  induction items generalizing index with
  | nil => simp [runElements]
  | cons item rest ih =>
      rw [exists_eq_append_cons_iff]
      simp only [List.forall_mem_cons, List.length_nil, List.length_cons]
      cases item with
      | map entries =>
          rw [runElements]
          split
          · next left hrun =>
            simp [ih, hrun, Nat.add_right_comm, ← Nat.add_assoc]
          · next own left hrun =>
            simp [hrun, eq_comm]
          · next e left hrun => simp [hrun]
      | _ => simp [runElements]

/-- So it is where a field has the elements as its items. -/
theorem runItems_eq_some_iff (child : Evaluation) (field : String) (value : Value)
    (message : String) :
    (runItems child field value).1 = .ok (some message) ↔
      ∃ before item after, value.items? = some (before ++ item :: after) ∧
        (∀ earlier ∈ before, ∃ entries, earlier = .map entries ∧ (child entries).1 = .ok none) ∧
        ∃ below, (∃ entries, item = .map entries ∧ (child entries).1 = .ok (some below)) ∧
          message = elementMessage before.length below := by
  have helements := fun items => runElements_eq_some_iff child field 0 items message
  simp only [Nat.zero_add] at helements
  have hrefuse : refuseAtoms field value ≠ .ok (some message) := by
    unfold refuseAtoms
    split
    · simp
    · split <;> simp
  cases value with
  | list items => simp only [runItems, helements, Value.items?, Option.some.injEq]
  | pair first second =>
      obtain ⟨first', second', -, hrun⟩ := runItems_pair child field first second
      simp only [hrun, helements, Value.items?, Option.some.injEq]
  | bytes bs =>
      refine iff_of_false hrefuse ?_
      rintro ⟨before, item, after, hitems, -, below, ⟨entries, rfl, -⟩, -⟩
      have hmem : Value.map entries ∈ bs.map fun b => Value.int b.toNat := by
        rw [Option.some.inj hitems]
        simp
      simp at hmem
  | _ => exact iff_of_false hrefuse (by simp [Value.items?])

/-! ## The steps of a field -/

/-- A step other than that for the elements leaves the value alone that has its default. -/
theorem runStep_effective (plans : Plans) (evaluate : Plan → Evaluation) {step : Step}
    (hsuits : Schema.Suits field step) (hown : ∀ type, step ≠ .elements type) (value : Value) :
    (runStep plans evaluate field step (field.effective value)).2 = field.effective value := by
  cases step with
  | default d =>
      have heffective := field.effective_effective value
      simp only [Schema.Suits] at hsuits
      rw [Field.effective, hsuits] at heffective
      exact heffective
  | required => rfl
  | oneOf allowed => rfl
  | elements type => exact absurd rfl (hown type)

/-- Steps that leave a value alone end with the first of them that fails on it. -/
theorem runSteps_of_forall (plans : Plans) (evaluate : Plan → Evaluation) {value : Value}
    (h : ∀ step ∈ steps, (runStep plans evaluate field step value).2 = value) :
    runSteps plans evaluate field steps value =
      (firstFailure (steps.map fun step =>
        (runStep plans evaluate field step value).1), value) := by
  induction steps with
  | nil => rfl
  | cons step rest ih =>
      rw [List.forall_mem_cons] at h
      rw [runSteps, List.map_cons]
      generalize hrun : runStep plans evaluate field step value = run at h
      obtain ⟨verdict, left⟩ := run
      obtain rfl : left = value := h.1
      obtain e | _ | message := verdict
      · rfl
      · exact ih h.2
      · rfl

/-- **The steps of a field see its value with the default in place**, whichever
of them it is that fails. -/
theorem runSteps_fst (evaluate : Plan → Evaluation)
    (hsteps : schema.fieldSteps owner field = .ok steps) (value : Value) :
    (runSteps plans evaluate field steps value).1 =
      firstFailure (steps.map fun step =>
        (runStep plans evaluate field step (field.effective value)).1) := by
  have hsuits := Schema.suits_of_fieldSteps hsteps
  obtain ⟨elements, helements, rfl⟩ := Schema.fieldSteps_eq_ok_iff.1 hsteps
  rw [List.forall_mem_append] at hsuits
  have hown : runSteps plans evaluate field (Schema.ownSteps field) (field.effective value) =
      (firstFailure ((Schema.ownSteps field).map fun step =>
        (runStep plans evaluate field step (field.effective value)).1),
        field.effective value) := by
    apply runSteps_of_forall
    intro step hstep
    apply runStep_effective plans evaluate (hsuits.1 step hstep)
    rintro type rfl
    exact Schema.elements_notMem_ownSteps hstep
  rw [runSteps_ownSteps, field.effective_effective, Prod.mk.injEq] at hown
  rw [runSteps_append, runSteps_ownSteps, List.map_append, firstFailure_append, ← hown.1]
  cases field.failure? (field.effective value) with
  | some message => rfl
  | none =>
      obtain ⟨-, rfl⟩ | ⟨type, -, rfl⟩ := Schema.elementStep_eq_ok_iff.1 helements
      · rfl
      · simp only [runSteps_singleton, List.map_cons, List.map_nil, firstFailure_singleton]

/-! ## Passing and failing as verdicts -/

variable {value : Value} {step : Step} {rules : FieldRules} {payload : Entries}

/-- A step gives no message exactly where it passes. -/
theorem runStep_eq_none_iff :
    (runStep plans (fun plan => plan.evaluate plans) field step value).1 = .ok none ↔
      step.Passes plans field value := by
  cases step with
  | default d => simp [runStep, Step.Passes]
  | required => simp [runStep, Step.Passes, Step.message?]
  | oneOf allowed => simp [runStep, Step.Passes, Step.message?]
  | elements type =>
      rw [runStep, Step.Passes]
      cases plans.lookup type with
      | none => simp
      | some child =>
          simp only [runItems_eq_none_iff, Option.some.injEq, exists_eq_left', Plan.Validates]

/-- A step gives a message exactly where it fails with it. -/
theorem runStep_eq_some_iff :
    (runStep plans (fun plan => plan.evaluate plans) field step value).1 = .ok (some message) ↔
      step.Fails plans field value message := by
  cases step with
  | default d => simp [runStep, Step.Fails]
  | required => simp [runStep, Step.Fails, Step.message?, @eq_comm _ message]
  | oneOf allowed => simp [runStep, Step.Fails, Step.message?, @eq_comm _ message]
  | elements type =>
      rw [runStep, Step.Fails]
      cases plans.lookup type with
      | none => simp
      | some child =>
          simp only [runItems_eq_some_iff, Option.some.injEq, exists_eq_left', Plan.Validates,
            Plan.Reports, exists_and_left]

/-- The steps of a field give no message exactly where its rules pass. -/
theorem runSteps_eq_none_iff (hsteps : schema.fieldSteps owner rules.field = .ok rules.steps) :
    (runSteps plans (fun plan => plan.evaluate plans) rules.field rules.steps
        (Entries.get payload rules.field.name)).1 = .ok none ↔
      rules.Passes plans payload := by
  rw [runSteps_fst _ hsteps, firstFailure_eq_none_iff, List.forall_mem_map]
  exact forall₂_congr fun step _ => runStep_eq_none_iff

/-- The steps of a field give a message exactly where its rules fail with it. -/
theorem runSteps_eq_some_iff (hsteps : schema.fieldSteps owner rules.field = .ok rules.steps) :
    (runSteps plans (fun plan => plan.evaluate plans) rules.field rules.steps
        (Entries.get payload rules.field.name)).1 = .ok (some message) ↔
      rules.Fails plans payload message := by
  rw [runSteps_fst _ hsteps, firstFailure_map_eq_some_iff]
  simp only [runStep_eq_none_iff, runStep_eq_some_iff]
  rfl

/-- The message about a payload is that of its first field that has one, where
all fields before it pass. -/
theorem evaluate_eq_some_iff
    (hnames : ∀ fields ∈ schema.fieldLists, (fields.map (·.name)).Nodup) {plan : Plan}
    (hplan : schema.HasPlan plan) (payload : Entries) :
    (plan.evaluate plans payload).1 = .ok (some message) ↔
      ∃ before rules after, plan.fields = before ++ rules :: after ∧
        (∀ earlier ∈ before, earlier.Passes plans payload) ∧ rules.Fails plans payload message := by
  obtain ⟨hnodup, owner, hsteps⟩ := hplan.fieldSteps hnames
  rw [evaluate_eq_runFields, runFields_fst _ _ hnodup, firstFailure_map_eq_some_iff]
  apply exists_congr
  intro before
  apply exists_congr
  intro rules
  apply exists_congr
  intro after
  apply and_congr_right
  intro hsplit
  rw [hsplit, List.forall_mem_append, List.forall_mem_cons] at hsteps
  apply and_congr
  · exact forall₂_congr fun earlier hmem => runSteps_eq_none_iff (hsteps.1 earlier hmem)
  · exact runSteps_eq_some_iff hsteps.2.1

end Evaluation

/-! ## Messages as chains of indices -/

/-- An index of an element for every level leads from the plan and the payload of
a type to the plan of another and an element of the payload. -/
inductive Plan.LeadsTo (plans : Plans) : Plan → Entries → List Nat → Plan → Entries → Prop where
  | here (plan : Plan) (payload : Entries) : LeadsTo plans plan payload [] plan payload
  | element {plan child inner : Plan} {payload entries below : Entries} {rules : FieldRules}
    {type : String} {items : List Value} {index : Nat} {address : List Nat}
    (hrules : rules ∈ plan.fields) (hstep : .elements type ∈ rules.steps)
    (hchild : plans.lookup type = some child) (hitems : (rules.value payload).items? = some items)
    (hitem : items[index]? = some (.map entries))
    (hrest : LeadsTo plans child entries address inner below) :
    LeadsTo plans plan payload (index :: address) inner below

/-- A message that a field has of its own follows the indices that lead to it. -/
theorem Evaluation.exists_leadsTo {schema : Schema} {plans : Plans}
    (hnames : ∀ fields ∈ schema.fieldLists, (fields.map (·.name)).Nodup)
    (hplans : ∀ entry ∈ plans, schema.HasPlan entry.2) {plan : Plan}
    (hplan : schema.HasPlan plan) {payload : Entries} {message : String}
    (h : (plan.evaluate plans payload).1 = .ok (some message)) :
    ∃ address inner below rules text, plan.LeadsTo plans payload address inner below ∧
      rules ∈ inner.fields ∧
      (inner.evaluate plans below).1 = .ok (some (fieldMessage rules.field.name text)) ∧
      message = address.foldr elementMessage (fieldMessage rules.field.name text) := by
  induction payload using Entries.items_induction generalizing plan message with
  | holds payload ih =>
      obtain ⟨before, rules, after, hsplit, -, passed, step, rest, hsteps, -, hfails⟩ :=
        (evaluate_eq_some_iff hnames hplan payload).1 h
      have hrules : rules ∈ plan.fields := by simp [hsplit]
      have hstep : step ∈ rules.steps := by simp [hsteps]
      cases step with
      | default d => exact hfails.elim
      | required =>
          obtain ⟨-, rfl⟩ := hfails
          exact ⟨[], plan, payload, rules, _, .here plan payload, hrules, h, rfl⟩
      | oneOf allowed =>
          obtain ⟨-, rfl⟩ := hfails
          exact ⟨[], plan, payload, rules, _, .here plan payload, hrules, h, rfl⟩
      | elements type =>
          obtain ⟨child, hchild, ahead, item, behind, own, hitems, -, ⟨entries, rfl, hown⟩, rfl⟩ :=
            hfails
          obtain ⟨address, inner, below, innermost, text, hleads, hmem, hinner, rfl⟩ :=
            ih _ _ entries (Field.items?_of_effective hitems) (by simp)
              (.of_lookup hplans hchild) hown
          refine ⟨ahead.length :: address, inner, below, innermost, text, ?_, hmem, hinner, rfl⟩
          exact .element hrules hstep hchild hitems (by simp) hleads

/-- **The first failure is the one that is reported.**  With plans of one schema,
each of whose field lists has distinct names, a payload has a message exactly when
some field has it, and all fields before that one pass.  The message consists of
indices that lead to an element of the payload, and of the message of a field of
the plan by which that element is validated. -/
theorem Schema.evaluate_eq_message_iff (schema : Schema)
    (hnames : ∀ fields ∈ schema.fieldLists, (fields.map (·.name)).Nodup) (plans : Plans)
    (hplans : ∀ entry ∈ plans, schema.HasPlan entry.2) (plan : Plan)
    (hplan : schema.HasPlan plan) (payload : Entries) (message : String) :
    ((plan.evaluate plans payload).1 = .ok (some message) ↔
      ∃ before rules after, plan.fields = before ++ rules :: after ∧
        (∀ earlier ∈ before, earlier.Passes plans payload) ∧
        rules.Fails plans payload message) ∧
    ((plan.evaluate plans payload).1 = .ok (some message) →
      ∃ address inner below rules text, plan.LeadsTo plans payload address inner below ∧
        rules ∈ inner.fields ∧
        (inner.evaluate plans below).1 = .ok (some (fieldMessage rules.field.name text)) ∧
        message = address.foldr elementMessage (fieldMessage rules.field.name text)) :=
  ⟨Evaluation.evaluate_eq_some_iff hnames hplan payload,
    fun h => Evaluation.exists_leadsTo hnames hplans hplan h⟩

/-- A tree of which the second node below the root has a label that is not allowed. -/
def Schema.twig : Entries :=
  [(.text "below", .list [.map [], .map [(.text "label", .text "twig")]])]

theorem Schema.trees_evaluate_eq_message_iff :
    ∃ plans, trees.typePlans.outcome = .ok plans ∧ ∃ plan, ("Node", plan) ∈ plans ∧
      ∃ message, (plan.evaluate plans twig).1 = .ok (some message) ∧
        (∃ before rules after, plan.fields = before ++ rules :: after ∧
          (∀ earlier ∈ before, earlier.Passes plans twig) ∧ rules.Fails plans twig message) ∧
        ∃ address inner below rules text, plan.LeadsTo plans twig address inner below ∧
          rules ∈ inner.fields ∧
          (inner.evaluate plans below).1 = .ok (some (fieldMessage rules.field.name text)) ∧
          message = address.foldr elementMessage (fieldMessage rules.field.name text) := by
  have hrun : ∃ plans, trees.typePlans.outcome = .ok plans ∧ ∃ plan, ("Node", plan) ∈ plans ∧
      (plan.evaluate plans twig).1 =
        .ok (some "element 1: Field: label, Message: must be one of: \"leaf\", \"branch\"") := by
    refine ⟨_, rfl, _, List.mem_cons_self, ?_⟩
    decide +kernel
  obtain ⟨plans, hplans, plan, hplan, hverdict⟩ := hrun
  have hall : ∀ entry ∈ plans, trees.HasPlan entry.2 :=
    fun entry hentry => hasPlan_of_mem_typePlans hplans hentry
  have hmessage := trees.evaluate_eq_message_iff (by decide) plans hall plan (hall _ hplan) twig
  exact ⟨plans, hplans, plan, hplan, _, hverdict, (hmessage _).1.1 hverdict,
    (hmessage _).2 hverdict⟩

end RpcBindings
