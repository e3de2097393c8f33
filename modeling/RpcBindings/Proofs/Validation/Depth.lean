import RpcBindings.Validation.Evaluation

/-!
# RpcBindings.Proofs.Validation.Depth

Evaluation without its bound.  `Evaluation.within` follows the mappings nested
in a payload down to a bound that is computed from the payload.  The bound is
never met: an element of a list is less deep than the mapping that holds the
list, and validation writes nothing that is deeper than what was there.  So
evaluation satisfies the equation of the unbounded recursion,
`evaluate_eq_runFields`, and later proofs see only that.
-/

namespace RpcBindings

/-! ## Depth of data -/

namespace Value

/-- No value of a mapping is deeper than the mapping. -/
theorem depth_le_depthOfEntries {key v : Value} {entries : Entries} (h : (key, v) ∈ entries) :
    v.depth ≤ depthOfEntries entries := by
  induction entries with
  | nil => simp at h
  | cons entry rest ih =>
      obtain ⟨k, old⟩ := entry
      rw [depthOfEntries]
      obtain heq | hrest := List.mem_cons.1 h
      · cases heq
        omega
      · have := ih hrest
        omega

/-- What a mapping has under a key is no deeper than the mapping. -/
theorem depth_get_le (entries : Entries) (name : String) :
    (Entries.get entries name).depth ≤ depthOfEntries entries := by
  unfold Entries.get
  cases h : Entries.find? entries name with
  | none => simp [depth]
  | some v =>
      obtain ⟨⟨key, value⟩, hfind, rfl⟩ := Option.map_eq_some_iff.1 h
      exact depth_le_depthOfEntries (List.mem_of_find?_eq_some hfind)

/-- Giving a key a value makes a mapping no deeper than it was and the value is. -/
theorem depthOfEntries_assign_le (entries : Entries) (name : String) (v : Value) :
    depthOfEntries (Entries.assign entries name v) ≤ max (depthOfEntries entries) v.depth := by
  have hput : ∀ v, depthOfEntries (Entries.putText entries name v) ≤
      max (depthOfEntries entries) v.depth := by
    intro v
    unfold Entries.putText Entries.put
    induction entries with
    | nil => simp [Entries.putBy, depthOfEntries, depth]
    | cons entry rest ih =>
        obtain ⟨key, old⟩ := entry
        rw [Entries.putBy]
        split
        · simp only [depthOfEntries]
          omega
        · simp only [depthOfEntries]
          omega
  unfold Entries.assign
  split
  · exact Nat.le_max_left ..
  · exact hput _

end Value

/-! ## Nothing gets deeper -/

namespace Evaluation

variable (plans : Plans) {evaluate evaluate' : Plan → Evaluation} {child child' : Evaluation}

/-- An evaluation that leaves mappings no deeper than they were. -/
def KeepsDepth (child : Evaluation) : Prop :=
  ∀ entries, Value.depthOfEntries (child entries).2 ≤ Value.depthOfEntries entries

/-- Elements get no deeper where the child keeps the depth. -/
theorem depthOfItems_runElements_le (h : KeepsDepth child) (field : String) (index : Nat)
    (items : List Value) :
    Value.depthOfItems (runElements child field index items).2 ≤ Value.depthOfItems items := by
  induction items generalizing index with
  | nil => simp [runElements]
  | cons item rest ih =>
      cases item with
      | map entries =>
          have hchild := h entries
          have hrest := ih (index + 1)
          rw [runElements]
          split <;> rename_i hrun <;> rw [hrun] at hchild <;>
            simp only [Value.depthOfItems, Value.depth] at hchild ⊢ <;> omega
      | _ => simp [runElements]

theorem depth_runItems_le (h : KeepsDepth child) (field : String) (v : Value) :
    (runItems child field v).2.depth ≤ v.depth := by
  cases v with
  | list items =>
      have := depthOfItems_runElements_le h field 0 items
      simp only [runItems, Value.depth]
      omega
  | pair first second =>
      have := depthOfItems_runElements_le h field 0 [first, second]
      rw [runItems]
      split
      · next hrun =>
        rw [hrun] at this
        simp only [Value.depthOfItems, Value.depth] at this ⊢
        omega
      · exact Nat.le_refl _
  | _ => simp [runItems]

/-- No step makes a value deeper. -/
theorem depth_runStep_le (h : ∀ plan, KeepsDepth (evaluate plan)) (field : Field) (step : Step)
    (v : Value) : (runStep plans evaluate field step v).2.depth ≤ v.depth := by
  cases step with
  | default d =>
      simp only [runStep]
      split
      · cases d <;> simp [DefaultValue.value, Value.depth]
      · exact Nat.le_refl _
  | required => simp [runStep]
  | oneOf allowed => simp [runStep]
  | elements type =>
      simp only [runStep]
      split
      · exact Nat.le_refl _
      · exact depth_runItems_le (h _) field.name v

theorem depth_runSteps_le (h : ∀ plan, KeepsDepth (evaluate plan)) (field : Field)
    (steps : List Step) (v : Value) :
    (runSteps plans evaluate field steps v).2.depth ≤ v.depth := by
  induction steps generalizing v with
  | nil => simp [runSteps]
  | cons step rest ih =>
      have hstep := depth_runStep_le plans h field step v
      rw [runSteps]
      split
      · next v' hrun =>
        rw [hrun] at hstep
        exact Nat.le_trans (ih v') hstep
      · exact hstep

/-- A field keeps the depth of the payload. -/
theorem keepsDepth_runField (h : ∀ plan, KeepsDepth (evaluate plan)) (rules : FieldRules) :
    KeepsDepth (runField plans evaluate rules) := by
  intro payload
  have hassign := Value.depthOfEntries_assign_le payload rules.field.name
    (runSteps plans evaluate rules.field rules.steps (Entries.get payload rules.field.name)).2
  have hsteps := depth_runSteps_le plans h rules.field rules.steps
    (Entries.get payload rules.field.name)
  have hget := Value.depth_get_le payload rules.field.name
  simp only [runField]
  omega

theorem keepsDepth_runFields (h : ∀ plan, KeepsDepth (evaluate plan)) (fields : List FieldRules) :
    KeepsDepth (runFields plans evaluate fields) := by
  induction fields with
  | nil => exact fun _ => Nat.le_refl _
  | cons rules rest ih =>
      intro payload
      have hfield := keepsDepth_runField plans h rules payload
      rw [runFields]
      split
      · next payload' hrun =>
        rw [hrun] at hfield
        exact Nat.le_trans (ih payload') hfield
      · exact hfield

/-- A plan keeps the depth of the payload at every bound on the recursion. -/
theorem keepsDepth_within (plans : Plans) (depth : Nat) (plan : Plan) :
    KeepsDepth (within plans depth plan) := by
  induction depth generalizing plan with
  | zero => exact fun _ => Nat.le_refl _
  | succ depth ih => exact keepsDepth_runFields plans ih plan.fields

/-! ## Only what is nested counts -/

/-- Two evaluations that agree on mappings of less than some depth. -/
def AgreeBelow (depth : Nat) (child child' : Evaluation) : Prop :=
  ∀ entries, Value.depthOfEntries entries < depth → child entries = child' entries

/-- Evaluations that agree below a depth agree on elements of that depth. -/
theorem runElements_congr {depth : Nat} (h : AgreeBelow depth child child') (field : String)
    (index : Nat) {items : List Value} (hitems : Value.depthOfItems items ≤ depth) :
    runElements child field index items = runElements child' field index items := by
  induction items generalizing index with
  | nil => simp [runElements]
  | cons item rest ih =>
      rw [Value.depthOfItems] at hitems
      have hrest := ih (index + 1) (by omega)
      cases item with
      | map entries =>
          have hentries : child entries = child' entries := by
            apply h
            rw [Value.depth] at hitems
            omega
          simp only [runElements, hentries, hrest]
      | _ => simp [runElements]

theorem runItems_congr {depth : Nat} (h : AgreeBelow depth child child') (field : String)
    {v : Value} (hv : v.depth ≤ depth) : runItems child field v = runItems child' field v := by
  cases v with
  | list items =>
      rw [Value.depth] at hv
      have hitems : Value.depthOfItems items ≤ depth := by omega
      simp only [runItems, runElements_congr h field 0 hitems]
  | pair first second =>
      rw [Value.depth] at hv
      have hitems : Value.depthOfItems [first, second] ≤ depth := by
        simp only [Value.depthOfItems]
        omega
      simp only [runItems, runElements_congr h field 0 hitems]
  | _ => simp [runItems]

/-- Evaluations that agree below a depth take one step alike. -/
theorem runStep_congr {depth : Nat} (h : ∀ plan, AgreeBelow depth (evaluate plan) (evaluate' plan))
    (field : Field) (step : Step) {v : Value} (hv : v.depth ≤ depth) :
    runStep plans evaluate field step v = runStep plans evaluate' field step v := by
  cases step with
  | elements type =>
      simp only [runStep]
      split
      · rfl
      · exact runItems_congr (h _) field.name hv
  | _ => rfl

theorem runSteps_congr {depth : Nat} (hkeeps : ∀ plan, KeepsDepth (evaluate plan))
    (h : ∀ plan, AgreeBelow depth (evaluate plan) (evaluate' plan)) (field : Field)
    (steps : List Step) {v : Value} (hv : v.depth ≤ depth) :
    runSteps plans evaluate field steps v = runSteps plans evaluate' field steps v := by
  induction steps generalizing v with
  | nil => rfl
  | cons step rest ih =>
      have hstep := depth_runStep_le plans hkeeps field step v
      rw [runSteps, runSteps, ← runStep_congr plans h field step hv]
      split
      · next v' hrun =>
        rw [hrun] at hstep
        exact ih (Nat.le_trans hstep hv)
      · rfl

theorem runField_congr {depth : Nat} (hkeeps : ∀ plan, KeepsDepth (evaluate plan))
    (h : ∀ plan, AgreeBelow depth (evaluate plan) (evaluate' plan)) (rules : FieldRules)
    {payload : Entries} (hp : Value.depthOfEntries payload ≤ depth) :
    runField plans evaluate rules payload = runField plans evaluate' rules payload := by
  have hget := Value.depth_get_le payload rules.field.name
  simp only [runField,
    runSteps_congr plans hkeeps h rules.field rules.steps (Nat.le_trans hget hp)]

/-- Evaluations that agree below a depth agree on a payload of that depth. -/
theorem runFields_congr {depth : Nat} (hkeeps : ∀ plan, KeepsDepth (evaluate plan))
    (h : ∀ plan, AgreeBelow depth (evaluate plan) (evaluate' plan)) (fields : List FieldRules)
    {payload : Entries} (hp : Value.depthOfEntries payload ≤ depth) :
    runFields plans evaluate fields payload = runFields plans evaluate' fields payload := by
  induction fields generalizing payload with
  | nil => rfl
  | cons rules rest ih =>
      have hfield := keepsDepth_runField plans hkeeps rules payload
      rw [runFields, runFields, ← runField_congr plans hkeeps h rules hp]
      split
      · next payload' hrun =>
        rw [hrun] at hfield
        exact ih (Nat.le_trans hfield hp)
      · rfl

/-- A bound above the depth of the payload is as good as any other. -/
theorem within_eq_within {n m : Nat} (plan : Plan) {payload : Entries}
    (hn : Value.depthOfEntries payload < n) (hm : Value.depthOfEntries payload < m) :
    within plans n plan payload = within plans m plan payload := by
  induction n generalizing m plan payload with
  | zero => omega
  | succ n ih =>
      cases m with
      | zero => omega
      | succ m =>
          apply runFields_congr plans (keepsDepth_within plans n) _ plan.fields (Nat.le_refl _)
          intro plan entries hentries
          exact ih plan (by omega) (by omega)

end Evaluation

/-! ## The equation of evaluation -/

open Evaluation

/-- **Evaluation is the unbounded recursion**: the elements of a payload are
evaluated by the very function that evaluates the payload. -/
theorem evaluate_eq_runFields (plan : Plan) (plans : Plans) (payload : Entries) :
    plan.evaluate plans payload =
      runFields plans (fun plan => plan.evaluate plans) plan.fields payload := by
  apply runFields_congr plans (keepsDepth_within plans _) _ plan.fields (Nat.le_refl _)
  intro child entries hentries
  exact within_eq_within plans child hentries (Nat.lt_succ_self _)

end RpcBindings
