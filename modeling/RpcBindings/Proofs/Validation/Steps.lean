import RpcBindings.Proofs.Validation.Plans
import RpcBindings.Validation.Evaluation

/-!
# RpcBindings.Proofs.Validation.Steps

What the steps of a field come to.  However they are cut into steps, the field
first gets its default where its value is zero, then has its own checks, and
last, if it is an array of a declared type, has its elements evaluated by the
plan of that type (`runSteps_fieldSteps`).  The fields of a payload with
distinct names do not see each other (`runFields_eq_none_iff`).
-/

namespace RpcBindings

/-! ## The value and the checks of a field -/

namespace Field

/-- The value that is checked: the default of the field in the place of a zero. -/
def effective (field : Field) (value : Value) : Value :=
  match Schema.defaultOf field with
  | some default => if value.isZero field.type.kind then default.value else value
  | none => value

/-- Whether a required field lacks its value. -/
def isMissing (field : Field) (value : Value) : Bool :=
  field.required && field.type.kind.isChecked && value.isZero field.type.kind

/-- The message for a text that the field does not allow. -/
def disallowed? (field : Field) (value : Value) : Option String :=
  match field.type.kind, field.enum with
  | .string, some (first :: rest) =>
    if value.isAllowed (first :: rest) then none
    else some (fieldMessage field.name (enumMessage (first :: rest)))
  | _, _ => none

/-- The message of the first check of the field that its value fails. -/
def failure? (field : Field) (value : Value) : Option String :=
  if field.isMissing value then some (fieldMessage field.name requiredMessage)
  else field.disallowed? value

/-- The default is in its place already when the value is checked. -/
theorem effective_effective (field : Field) (value : Value) :
    field.effective (field.effective value) = field.effective value := by
  unfold effective
  split
  · next default _ =>
    by_cases hzero : value.isZero field.type.kind
    · simp only [hzero, if_true, ite_self]
    · simp only [hzero, if_false, Bool.false_eq_true]
  · rfl

/-- Only whole numbers and texts have defaults to be put in place. -/
theorem effective_of_array {field : Field} (h : field.type.kind = .array) (value : Value) :
    field.effective value = value := by
  simp [effective, Schema.defaultOf, h]

/-- An array has no other check than that it is there. -/
theorem failure?_of_array {field : Field} (h : field.type.kind = .array) (value : Value) :
    field.failure? value =
      if field.isMissing value then some (fieldMessage field.name requiredMessage) else none := by
  simp [failure?, disallowed?, h]

end Field

namespace Evaluation

variable (plans : Plans) (evaluate : Plan → Evaluation) {schema : Schema} {owner : String}
  {field : Field} {steps : List Step}

/-! ## The elements of a value -/

/-- A pair is left as a pair. -/
theorem length_runElements (child : Evaluation) (field : String) (index : Nat)
    (items : List Value) : (runElements child field index items).2.length = items.length := by
  induction items generalizing index with
  | nil => rfl
  | cons item rest ih =>
      cases item with
      | map entries =>
          rw [runElements]
          split
          · simp [ih (index + 1)]
          · rfl
          · rfl
      | _ => rfl

/-- A pair is evaluated as its two elements, and is a pair again. -/
theorem runItems_pair (child : Evaluation) (field : String) (first second : Value) :
    ∃ first' second', (runElements child field 0 [first, second]).2 = [first', second'] ∧
      runItems child field (.pair first second) =
        ((runElements child field 0 [first, second]).1, .pair first' second') := by
  have hlength := length_runElements child field 0 [first, second]
  obtain ⟨first', second', hleft⟩ := List.length_eq_two.1 hlength
  refine ⟨first', second', hleft, ?_⟩
  generalize hrun : runElements child field 0 [first, second] = run at hleft
  obtain ⟨verdict, left⟩ := run
  rw [runItems, hrun]
  simp only at hleft
  rw [hleft]

/-! ## The steps of a field in closed form -/

/-- Steps run one part after the other. -/
theorem runSteps_append (field : Field) (first rest : List Step) (value : Value) :
    runSteps plans evaluate field (first ++ rest) value =
      match runSteps plans evaluate field first value with
      | (.ok none, value) => runSteps plans evaluate field rest value
      | stopped => stopped := by
  induction first generalizing value with
  | nil => rfl
  | cons step first ih =>
      rw [List.cons_append, runSteps, runSteps]
      split
      · exact ih _
      · next hstop =>
        split
        · next value heq => exact absurd heq (hstop value)
        · rfl

theorem runSteps_singleton (field : Field) (step : Step) (value : Value) :
    runSteps plans evaluate field [step] value = runStep plans evaluate field step value := by
  rw [runSteps]
  split
  · next heq => rw [heq, runSteps]
  · rfl

/-- The default of a field is put in its place. -/
theorem runSteps_defaultOf (field : Field) (value : Value) :
    runSteps plans evaluate field ((Schema.defaultOf field).toList.map Step.default) value =
      (.ok none, field.effective value) := by
  unfold Field.effective
  cases Schema.defaultOf field with
  | none => rfl
  | some default => simp only [Option.toList_some, List.map_cons, List.map_nil,
      runSteps_singleton, runStep]

/-- The step for an enumeration reports the member that is not allowed. -/
theorem runSteps_enumStep (field : Field) (value : Value) :
    runSteps plans evaluate field (Schema.enumStep field) value =
      (.ok (field.disallowed? value), value) := by
  by_cases hlisted : ∃ first rest, field.type.kind = .string ∧ field.enum = some (first :: rest)
  · obtain ⟨first, rest, hkind, henum⟩ := hlisted
    simp only [Schema.enumStep, Field.disallowed?, hkind, henum, runSteps_singleton, runStep,
      Step.message?]
  · have hsteps : Schema.enumStep field = [] := by
      unfold Schema.enumStep
      split
      · next hkind henum => exact absurd ⟨_, _, hkind, henum⟩ hlisted
      · rfl
    have hallowed : field.disallowed? value = none := by
      unfold Field.disallowed?
      split
      · next hkind henum => exact absurd ⟨_, _, hkind, henum⟩ hlisted
      · rfl
    rw [hsteps, hallowed]
    rfl

/-- The steps of a field that do not look into its value put the default in its
place and make the checks. -/
theorem runSteps_ownSteps (field : Field) (value : Value) :
    runSteps plans evaluate field (Schema.ownSteps field) value =
      (.ok (field.failure? (field.effective value)), field.effective value) := by
  rw [Schema.ownSteps, List.append_assoc, runSteps_append, runSteps_defaultOf]
  simp only
  generalize field.effective value = value
  rw [runSteps_append]
  simp only [runSteps_enumStep]
  unfold Field.failure? Field.isMissing
  cases hchecked : field.required && field.type.kind.isChecked with
  | false => simp [runSteps]
  | true =>
      cases hzero : value.isZero field.type.kind with
      | false => simp [runSteps, runStep, hzero]
      | true => simp [runSteps, runStep, hzero, Step.message?]

/-- **The steps of a field in closed form.** -/
theorem runSteps_fieldSteps (h : schema.fieldSteps owner field = .ok steps) (value : Value) :
    runSteps plans evaluate field steps value =
      match field.failure? (field.effective value) with
      | some message => (.ok (some message), field.effective value)
      | none =>
        match schema.elementType? field with
        | none => (.ok none, field.effective value)
        | some type =>
          runStep plans evaluate field (.elements type.name) (field.effective value) := by
  obtain ⟨elements, helements, rfl⟩ := Schema.fieldSteps_eq_ok_iff.1 h
  rw [runSteps_append, runSteps_ownSteps]
  cases field.failure? (field.effective value) with
  | some message => rfl
  | none =>
      obtain ⟨htarget, rfl⟩ | ⟨type, htype, rfl⟩ := Schema.elementStep_eq_ok_iff.1 helements
      · simp [runSteps, Schema.elementType?, htarget]
      · simp only [htype, runSteps_singleton]

/-! ## The fields of a payload -/

/-- The first verdict that is not in favour. -/
def firstFailure : List Verdict → Verdict
  | [] => .ok none
  | .ok none :: rest => firstFailure rest
  | verdict :: _ => verdict

/-- There is no first failure exactly where nothing fails. -/
theorem firstFailure_eq_none_iff {verdicts : List Verdict} :
    firstFailure verdicts = .ok none ↔ ∀ verdict ∈ verdicts, verdict = .ok none := by
  induction verdicts with
  | nil => simp [firstFailure]
  | cons verdict rest ih =>
      rw [List.forall_mem_cons, ← ih]
      rcases verdict with e | _ | message <;> simp [firstFailure]

/-- The first failure is one of the verdicts. -/
theorem mem_of_firstFailure {verdicts : List Verdict} (h : firstFailure verdicts ≠ .ok none) :
    firstFailure verdicts ∈ verdicts := by
  induction verdicts with
  | nil => exact absurd rfl h
  | cons verdict rest ih =>
      obtain e | _ | message := verdict
      · exact List.mem_cons_self
      · exact List.mem_cons_of_mem _ (ih h)
      · exact List.mem_cons_self

/-- **Fields of distinct names do not disturb each other**: the verdict on a
payload is the first on the values that it had for its fields in the beginning. -/
theorem runFields_fst {rules : List FieldRules} (hnames : (rules.map (·.field.name)).Nodup)
    (payload : Entries) :
    (runFields plans evaluate rules payload).1 =
      firstFailure (rules.map fun r =>
        (runSteps plans evaluate r.field r.steps (Entries.get payload r.field.name)).1) := by
  induction rules generalizing payload with
  | nil => rfl
  | cons r rules ih =>
      rw [List.map_cons, List.nodup_cons] at hnames
      rw [runFields, List.map_cons, runField]
      simp only
      generalize hrun : runSteps plans evaluate r.field r.steps
        (Entries.get payload r.field.name) = run
      obtain ⟨verdict, value⟩ := run
      have hrest : ∀ r' ∈ rules,
          Entries.get (Entries.assign payload r.field.name value) r'.field.name =
            Entries.get payload r'.field.name := by
        intro r' hr'
        rw [Entries.get_assign, if_neg]
        intro heq
        exact hnames.1 (heq ▸ List.mem_map_of_mem hr')
      obtain e | _ | message := verdict
      · rfl
      · simp only [firstFailure]
        rw [ih hnames.2]
        congr 1
        apply List.map_congr_left
        intro r' hr'
        rw [hrest r' hr']
      · rfl

/-- Fields with different names have rules for different names. -/
theorem nodup_rulesOf {fields : List Field} {rules : List FieldRules}
    (hrules : (schema.rulesOf owner fields).outcome = .ok rules)
    (hnames : (fields.map (·.name)).Nodup) : (rules.map (·.field.name)).Nodup := by
  have hsub := (Schema.rulesOf_sublist hrules).map (·.name)
  rw [List.map_map] at hsub
  exact hnames.sublist hsub

/-- A payload is in order when for every field the checks pass and the elements,
if it has any, are in order. -/
theorem runFields_eq_none_iff {fields : List Field} {rules : List FieldRules}
    (hrules : (schema.rulesOf owner fields).outcome = .ok rules)
    (hnames : (fields.map (·.name)).Nodup) (payload : Entries) :
    (runFields plans evaluate rules payload).1 = .ok none ↔
      ∀ field ∈ fields,
        field.failure? (field.effective (Entries.get payload field.name)) = none ∧
          ∀ element, schema.elementType? field = some element →
            (runStep plans evaluate field (.elements element.name)
              (field.effective (Entries.get payload field.name))).1 = .ok none := by
  rw [runFields_fst plans evaluate (nodup_rulesOf hrules hnames), firstFailure_eq_none_iff,
    List.forall_mem_map, Schema.forall_mem_rulesOf_iff hrules
      (P := fun field steps =>
        (runSteps plans evaluate field steps (Entries.get payload field.name)).1 = .ok none)
      (fun _ => rfl)]
  apply forall₂_congr
  intro field hfield
  obtain ⟨steps, hsteps, -⟩ := Schema.mem_rulesOf hrules hfield
  simp only [hsteps, Except.ok.injEq, forall_eq',
    runSteps_fieldSteps plans evaluate hsteps]
  cases field.failure? (field.effective (Entries.get payload field.name)) with
  | some message => simp
  | none => cases schema.elementType? field <;> simp

/-- Only the elements of a field keep a payload from being evaluated. -/
theorem runFields_eq_error {fields : List Field} {rules : List FieldRules} {e : EvaluationError}
    (hrules : (schema.rulesOf owner fields).outcome = .ok rules)
    (hnames : (fields.map (·.name)).Nodup) {payload : Entries}
    (h : (runFields plans evaluate rules payload).1 = .error e) :
    ∃ field ∈ fields, ∃ element, schema.elementType? field = some element ∧
      (runStep plans evaluate field (.elements element.name)
        (field.effective (Entries.get payload field.name))).1 = .error e := by
  rw [runFields_fst plans evaluate (nodup_rulesOf hrules hnames)] at h
  have hmem := mem_of_firstFailure (by rw [h]; simp)
  rw [h, List.mem_map] at hmem
  obtain ⟨r, hr, hverdict⟩ := hmem
  have hfield := (Schema.rulesOf_sublist hrules).subset (List.mem_map_of_mem hr)
  rw [runSteps_fieldSteps plans evaluate (Schema.fieldSteps_of_mem_rulesOf hrules hr)] at hverdict
  split at hverdict
  · simp at hverdict
  · split at hverdict
    · simp at hverdict
    · next element helement => exact ⟨r.field, hfield, element, helement, hverdict⟩

end Evaluation

/-- The rules of a plan are for fields of distinct names, and hold the steps of these. -/
theorem Schema.HasPlan.fieldSteps {schema : Schema} {plan : Plan}
    (hnames : ∀ fields ∈ schema.fieldLists, (fields.map (·.name)).Nodup)
    (h : schema.HasPlan plan) :
    (plan.fields.map (·.field.name)).Nodup ∧
      ∃ owner, ∀ rules ∈ plan.fields, schema.fieldSteps owner rules.field = .ok rules.steps := by
  obtain ⟨owner, fields, hfields, hrules⟩ := h.rulesOf
  exact ⟨Evaluation.nodup_rulesOf hrules (hnames fields hfields), owner,
    fun rules hmem => fieldSteps_of_mem_rulesOf hrules hmem⟩

end RpcBindings
