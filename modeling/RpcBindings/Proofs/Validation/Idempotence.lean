import RpcBindings.Proofs.Validation.Depth
import RpcBindings.Proofs.Validation.Steps

/-!
# RpcBindings.Proofs.Validation.Idempotence

Validating again.  Wherever an evaluation stopped, the payload that it left is
one that it leaves as it is: what was passed on the way is in its final state,
what was not reached is not reached the second time either, and the verdict is
the same.  The argument climbs from the elements of a list to the value of a
field, from there to the fields of a payload, and closes with an induction on
how deep the payload is nested.
-/

namespace RpcBindings

namespace Evaluation

variable {plans : Plans} {evaluate : Plan → Evaluation} {child : Evaluation} {schema : Schema}
  {owner : String} {field : Field} {steps : List Step}

/-- An evaluation that, on mappings of less than some depth, does the same again
to what it left. -/
def SettlesBelow (depth : Nat) (child : Evaluation) : Prop :=
  ∀ entries, Value.depthOfEntries entries < depth → child (child entries).2 = child entries

/-! ## Elements -/

/-- Elements that settle below a depth are the same after a second run. -/
theorem runElements_runElements {depth : Nat} (h : SettlesBelow depth child) (field : String)
    (index : Nat) {items : List Value} (hitems : Value.depthOfItems items ≤ depth) :
    runElements child field index (runElements child field index items).2 =
      runElements child field index items := by
  induction items generalizing index with
  | nil => rfl
  | cons item rest ih =>
      rw [Value.depthOfItems] at hitems
      have hrest := ih (index + 1) (by omega)
      cases item with
      | map entries =>
          have hentries : child (child entries).2 = child entries := by
            apply h
            rw [Value.depth] at hitems
            omega
          rw [runElements]
          split
          · next hrun =>
            rw [hrun] at hentries
            simp only [runElements, hentries, hrest]
          · next hrun =>
            rw [hrun] at hentries
            simp only [runElements, hentries]
          · next hrun =>
            rw [hrun] at hentries
            simp only [runElements, hentries]
      | _ => rfl

/-- The items of a value that settle below a depth are the same after a second run. -/
theorem runItems_runItems {depth : Nat} (h : SettlesBelow depth child) (field : String)
    {value : Value} (hvalue : value.depth ≤ depth) :
    runItems child field (runItems child field value).2 = runItems child field value := by
  cases value with
  | list items =>
      rw [Value.depth] at hvalue
      have hitems : Value.depthOfItems items ≤ depth := by omega
      simp only [runItems, runElements_runElements h field 0 hitems]
  | pair first second =>
      rw [Value.depth] at hvalue
      have hitems : Value.depthOfItems [first, second] ≤ depth := by
        simp only [Value.depthOfItems]
        omega
      have hagain := runElements_runElements h field 0 hitems
      obtain ⟨first', second', hleft, hrun⟩ := runItems_pair child field first second
      obtain ⟨first'', second'', hleft', hrun'⟩ := runItems_pair child field first' second'
      rw [hleft] at hagain
      rw [hagain, hleft] at hleft'
      cases hleft'
      rw [hrun, hrun', hagain]
  | _ => rfl

/-- An array is there after the evaluation of its elements just if it was before. -/
theorem isZero_runItems (child : Evaluation) (field : String) (value : Value) :
    (runItems child field value).2.isZero .array = value.isZero .array := by
  cases value with
  | pair first second =>
      obtain ⟨first', second', -, hrun⟩ := runItems_pair child field first second
      rw [hrun]
      rfl
  | _ => rfl

/-! ## The value of a field -/

/-- Running the steps of a field on the value that they left does the same again. -/
theorem runSteps_runSteps {depth : Nat} (h : ∀ type plan, plans.lookup type = some plan →
      SettlesBelow depth (evaluate plan)) (hsteps : schema.fieldSteps owner field = .ok steps)
    {value : Value} (hvalue : value.depth ≤ depth) :
    runSteps plans evaluate field steps (runSteps plans evaluate field steps value).2 =
      runSteps plans evaluate field steps value := by
  simp only [runSteps_fieldSteps plans evaluate hsteps]
  cases hfailure : field.failure? (field.effective value) with
  | some message => simp only [field.effective_effective, hfailure]
  | none =>
      cases helement : schema.elementType? field with
      | none => simp only [field.effective_effective, hfailure]
      | some element =>
          -- An array has no default, and its only check is that it is there.
          have harray := Schema.kind_of_elementType? helement
          simp only [Field.effective_of_array harray] at hfailure ⊢
          simp only [runStep]
          cases hplan : plans.lookup element.name with
          | none => simp only [hfailure]
          | some plan =>
              have hagain := runItems_runItems (h _ _ hplan) field.name hvalue
              have hzero := isZero_runItems (evaluate plan) field.name value
              have hmissing : field.isMissing (runItems (evaluate plan) field.name value).2 =
                  field.isMissing value := by
                rw [Field.isMissing, Field.isMissing, harray, hzero]
              rw [Field.failure?_of_array harray] at hfailure
              simp only [Field.failure?_of_array harray, hmissing, hfailure, hagain]

/-! ## The fields of a payload -/

/-- The value of a field in what its steps left is the value that they left. -/
theorem get_runField (plans : Plans) (evaluate : Plan → Evaluation) (rules : FieldRules)
    (payload : Entries) :
    Entries.get (runField plans evaluate rules payload).2 rules.field.name =
      (runSteps plans evaluate rules.field rules.steps
        (Entries.get payload rules.field.name)).2 := by
  simp only [runField, Entries.get_assign, if_true]

/-- The steps of a field leave the other fields alone. -/
theorem get_runField_of_ne (plans : Plans) (evaluate : Plan → Evaluation) {rules : FieldRules}
    {name : String} (hname : name ≠ rules.field.name) (payload : Entries) :
    Entries.get (runField plans evaluate rules payload).2 name = Entries.get payload name := by
  simp only [runField, Entries.get_assign, if_neg hname]

/-- Fields change the values under their own names only. -/
theorem get_runFields_of_notMem (plans : Plans) (evaluate : Plan → Evaluation)
    {fields : List FieldRules} {name : String} (hname : name ∉ fields.map (·.field.name))
    (payload : Entries) :
    Entries.get (runFields plans evaluate fields payload).2 name = Entries.get payload name := by
  induction fields generalizing payload with
  | nil => rfl
  | cons rules rest ih =>
      rw [List.map_cons, List.mem_cons, not_or] at hname
      have hfield := get_runField_of_ne plans evaluate hname.1 payload
      rw [runFields]
      split
      · next payload' hrun =>
        rw [ih hname.2, ← hfield, hrun]
      · exact hfield

/-- Where a payload has for a field what the steps of the field left, they leave
the payload as it is. -/
theorem runField_of_get {rules : FieldRules} {value : Value} {payload : Entries}
    (hagain : runSteps plans evaluate rules.field rules.steps
        (runSteps plans evaluate rules.field rules.steps value).2 =
      runSteps plans evaluate rules.field rules.steps value)
    (hget : Entries.get payload rules.field.name =
      (runSteps plans evaluate rules.field rules.steps value).2) :
    runField plans evaluate rules payload =
      ((runSteps plans evaluate rules.field rules.steps value).1, payload) := by
  simp only [runField, hget, hagain]
  rw [← hget, Entries.assign_get]

/-- Running the fields of a payload again does the same as before, if running
each of them on its own does. -/
theorem runFields_runFields {fields : List FieldRules}
    (hnames : (fields.map (·.field.name)).Nodup) {payload : Entries}
    (h : ∀ rules ∈ fields,
      runSteps plans evaluate rules.field rules.steps
          (runSteps plans evaluate rules.field rules.steps
            (Entries.get payload rules.field.name)).2 =
        runSteps plans evaluate rules.field rules.steps
          (Entries.get payload rules.field.name)) :
    runFields plans evaluate fields (runFields plans evaluate fields payload).2 =
      runFields plans evaluate fields payload := by
  induction fields generalizing payload with
  | nil => rfl
  | cons rules rest ih =>
      rw [List.map_cons, List.nodup_cons] at hnames
      rw [List.forall_mem_cons] at h
      have hleft := get_runField plans evaluate rules payload
      have hverdict : (runField plans evaluate rules payload).1 =
        (runSteps plans evaluate rules.field rules.steps
          (Entries.get payload rules.field.name)).1 := rfl
      have hothers : ∀ rules' ∈ rest,
          Entries.get (runField plans evaluate rules payload).2 rules'.field.name =
            Entries.get payload rules'.field.name := by
        intro rules' hmem
        apply get_runField_of_ne
        intro heq
        exact hnames.1 (heq ▸ List.mem_map_of_mem hmem)
      generalize hrun : runField plans evaluate rules payload = run at hleft hverdict hothers
      obtain ⟨verdict, left⟩ := run
      simp only at hleft hverdict hothers
      obtain e | _ | message := verdict
      · simp only [runFields, hrun, runField_of_get h.1 hleft, ← hverdict]
      · -- The other fields run on what the first one left, and keep its value.
        have hget : Entries.get (runFields plans evaluate rest left).2 rules.field.name =
            (runSteps plans evaluate rules.field rules.steps
              (Entries.get payload rules.field.name)).2 := by
          rw [get_runFields_of_notMem plans evaluate hnames.1, hleft]
        have hrest : runFields plans evaluate rest (runFields plans evaluate rest left).2 =
            runFields plans evaluate rest left := by
          apply ih hnames.2
          intro rules' hmem
          rw [hothers rules' hmem]
          exact h.2 rules' hmem
        simp only [runFields, hrun, runField_of_get h.1 hget, ← hverdict, hrest]
      · simp only [runFields, hrun, runField_of_get h.1 hleft, ← hverdict]

/-! ## Payloads -/

/-- A plan of a schema settles on the payloads of any depth. -/
theorem settlesBelow_evaluate (hplans : ∀ entry ∈ plans, schema.HasPlan entry.2)
    (hnames : ∀ fields ∈ schema.fieldLists, (fields.map (·.name)).Nodup) (depth : Nat)
    {plan : Plan} (hplan : schema.HasPlan plan) : SettlesBelow depth (plan.evaluate plans) := by
  induction depth generalizing plan with
  | zero => exact fun _ h => absurd h (Nat.not_lt_zero _)
  | succ depth ih =>
      intro payload hdepth
      obtain ⟨hnodup, owner, hsteps⟩ := hplan.fieldSteps hnames
      rw [evaluate_eq_runFields plan plans payload, evaluate_eq_runFields]
      have hchildren : ∀ type child, plans.lookup type = some child →
          SettlesBelow depth (child.evaluate plans) := by
        intro type child hlookup
        exact ih (.of_lookup hplans hlookup)
      apply runFields_runFields hnodup
      intro rules hmem
      have hget := Value.depth_get_le payload rules.field.name
      exact runSteps_runSteps hchildren (hsteps rules hmem) (by omega)

end Evaluation

/-- **Validation is idempotent.**  With plans of one schema, each of whose field
lists has distinct names, validating what a validation left gives the verdict
again and leaves the payload as it is. -/
theorem Schema.evaluate_evaluate (schema : Schema)
    (hnames : ∀ fields ∈ schema.fieldLists, (fields.map (·.name)).Nodup) (plans : Plans)
    (hplans : ∀ entry ∈ plans, schema.HasPlan entry.2) (plan : Plan)
    (hplan : schema.HasPlan plan) (payload : Entries) :
    plan.evaluate plans (plan.evaluate plans payload).2 = plan.evaluate plans payload :=
  Evaluation.settlesBelow_evaluate hplans hnames _ hplan payload (Nat.lt_succ_self _)

theorem Schema.trees_evaluate_evaluate :
    ∃ plans, trees.typePlans.outcome = .ok plans ∧ ∃ plan, ("Node", plan) ∈ plans ∧
      plan.evaluate plans (plan.evaluate plans
          [(.text "below", .list [.map [(.text "label", .text "")], .int 3])]).2 =
        plan.evaluate plans
          [(.text "below", .list [.map [(.text "label", .text "")], .int 3])] := by
  have hmem : ∃ plans, trees.typePlans.outcome = .ok plans ∧
      ∃ plan, ("Node", plan) ∈ plans := ⟨_, rfl, _, List.mem_cons_self⟩
  obtain ⟨plans, hplans, plan, hplan⟩ := hmem
  have hall : ∀ entry ∈ plans, trees.HasPlan entry.2 :=
    fun entry hentry => hasPlan_of_mem_typePlans hplans hentry
  exact ⟨plans, hplans, plan, hplan,
    trees.evaluate_evaluate (by decide) plans hall plan (hall _ hplan) _⟩

end RpcBindings
