import RpcBindings.Proofs.Validation.FirstFailure
import RpcBindings.Proofs.Value.Keyed
import RpcBindings.Proofs.Value.Writes

/-!
# RpcBindings.Proofs.Validation.Frame

What validation does to a payload.  `Plan.Leaves` says it without running any
step.  The fields that are reached are those up to the first that does not pass.
A reached field whose value is zero gets its default if it has one; the items of
a reached field that holds elements are left as they are by the plan of their
type, up to the first that is not in order; everything else stays, and stays where
it is.  An evaluation leaves a payload like this whatever its verdict is, and
what it looks at are the values of the fields of the plan only.
-/

namespace RpcBindings

/-! ## What is left -/

/-- The members of a list up to the first that lacks a property. -/
inductive UpTo {α : Type} (P : α → Prop) : List α → List α → Prop where
  | nil : UpTo P [] []
  | pass {member : α} {rest reached : List α} (h : P member) (hrest : UpTo P rest reached) :
    UpTo P (member :: rest) (member :: reached)
  | stop {member : α} {rest : List α} (h : ¬ P member) : UpTo P (member :: rest) [member]

/-- A value with other items in the place of its own. -/
def Value.withItems : Value → List Value → Value
  | .list _, items => .list items
  | .pair _ _, [first, second] => .pair first second
  | value, _ => value

/-- Whether a step puts a default in place. -/
def Step.isDefault : Step → Bool
  | .default _ => true
  | _ => false

/-- Whether validation adds an entry for a field: its default, where it is not there. -/
def FieldRules.adds (payload : Entries) (rules : FieldRules) : Bool :=
  (Entries.find? payload rules.field.name).isNone && rules.steps.any Step.isDefault

mutual

/-- A payload, and the payload that a plan leaves of it.  The keys stay in their
places and those of added defaults follow in the order of the plan; entries that
are not those of reached fields stay as they are. -/
inductive Plan.Leaves (plans : Plans) : Plan → Entries → Entries → Prop where
  | intro {plan : Plan} {payload left : Entries} {reached : List FieldRules}
    (hreached : UpTo (·.Passes plans payload) plan.fields reached)
    (hkeys : left.map (·.1) = payload.map (·.1) ++
      (reached.filter (·.adds payload)).map (.text ·.field.name))
    (hothers : ∀ (index : Nat) (entry : Value × Value), payload[index]? = some entry →
      (∀ rules ∈ reached, entry.1 ≠ .text rules.field.name) → left[index]? = some entry)
    (hvalues : ∀ rules ∈ reached, rules.Leaves plans (Entries.get payload rules.field.name)
      (Entries.get left rules.field.name)) :
    plan.Leaves plans payload left

/-- The value of a field, and the value that its steps leave. -/
inductive FieldRules.Leaves (plans : Plans) : FieldRules → Value → Value → Prop where
  | replaced {rules : FieldRules} {value : Value} {d : DefaultValue}
    (hdefault : .default d ∈ rules.steps) (hzero : value.isZero rules.field.type.kind = true) :
    rules.Leaves plans value d.value
  | elements {rules : FieldRules} {value : Value} {type : String} {child : Plan}
    {items left : List Value} (hstep : .elements type ∈ rules.steps)
    (hchild : plans.lookup type = some child) (hitems : value.items? = some items)
    (hleft : child.LeavesItems plans items left) :
    rules.Leaves plans value (value.withItems left)
  | kept {rules : FieldRules} {value : Value}
    (hdefault : ∀ d, .default d ∈ rules.steps → value.isZero rules.field.type.kind = false)
    (helements : ∀ type, .elements type ∈ rules.steps →
      plans.lookup type = none ∨ value.items? = none) :
    rules.Leaves plans value value

/-- Items, and the items that a plan leaves of them: it goes through mappings up
to the first that is not in order. -/
inductive Plan.LeavesItems (plans : Plans) : Plan → List Value → List Value → Prop where
  | nil (plan : Plan) : plan.LeavesItems plans [] []
  | pass {plan : Plan} {entries left : Entries} {rest restLeft : List Value}
    (h : (plan.evaluate plans entries).1 = .ok none) (hleft : plan.Leaves plans entries left)
    (hrest : plan.LeavesItems plans rest restLeft) :
    plan.LeavesItems plans (.map entries :: rest) (.map left :: restLeft)
  | stop {plan : Plan} {entries left : Entries} {rest : List Value}
    (h : (plan.evaluate plans entries).1 ≠ .ok none) (hleft : plan.Leaves plans entries left) :
    plan.LeavesItems plans (.map entries :: rest) (.map left :: rest)
  | refused {plan : Plan} {item : Value} {rest : List Value} (h : ∀ entries, item ≠ .map entries) :
    plan.LeavesItems plans (item :: rest) (item :: rest)

end

/-! ## The reached members of a list -/

namespace UpTo

variable {α : Type} {P Q : α → Prop} {members reached : List α}

/-- What is reached is a first part of the list. -/
theorem isPrefix (h : UpTo P members reached) : reached <+: members := by
  induction h with
  | nil => exact List.prefix_rfl
  | pass h hrest ih => exact List.prefix_cons_inj _ |>.2 ih
  | stop h => exact ⟨_, rfl⟩

/-- Two conditions that agree on the list reach the same part of it. -/
theorem congr (h : UpTo P members reached) (hiff : ∀ member ∈ members, P member ↔ Q member) :
    UpTo Q members reached := by
  induction h with
  | nil => exact .nil
  | pass h hrest ih =>
      rw [List.forall_mem_cons] at hiff
      exact .pass (hiff.1.1 h) (ih hiff.2)
  | stop h =>
      rw [List.forall_mem_cons] at hiff
      exact .stop fun hQ => h (hiff.1.2 hQ)

/-- The whole list is reached where every member meets the condition. -/
theorem eq_of_forall (h : UpTo P members reached) (hall : ∀ member ∈ members, P member) :
    reached = members := by
  induction h with
  | nil => rfl
  | pass h hrest ih => rw [ih (List.forall_mem_cons.1 hall).2]
  | stop hno => exact absurd (List.forall_mem_cons.1 hall).1 hno

/-- A plan leaves one list of elements only. -/
theorem unique {reached' : List α} (h : UpTo P members reached) (h' : UpTo P members reached') :
    reached = reached' := by
  induction h generalizing reached' with
  | nil => cases h'; rfl
  | pass h hrest ih =>
      cases h' with
      | pass _ hrest' => rw [ih hrest']
      | stop hno => exact absurd h hno
  | stop hno =>
      cases h' with
      | pass h _ => exact absurd h hno
      | stop _ => rfl

end UpTo

/-! ## The value of a field -/

/-- A field has an entry of its own added just if it gets a default that was not there. -/
theorem FieldRules.Leaves.isAdded_eq {plans : Plans} {rules : FieldRules} {payload : Entries}
    {left : Value} (h : rules.Leaves plans (Entries.get payload rules.field.name) left) :
    Entries.isAdded payload (rules.field.name, left) = rules.adds payload := by
  unfold Entries.isAdded FieldRules.adds
  unfold Entries.get at h
  cases hfind : Entries.find? payload rules.field.name with
  | some value => simp
  | none =>
      simp only [hfind, Option.getD_none] at h
      generalize hnull : Value.null = value at h
      cases h with
      | replaced hdefault hzero =>
          rename_i d
          have hany : rules.steps.any Step.isDefault = true :=
            List.any_eq_true.2 ⟨_, hdefault, rfl⟩
          cases d <;> simp [hany, DefaultValue.value]
      | elements hstep hchild hitems hleft => simp [← hnull, Value.items?] at hitems
      | kept hdefault helements =>
          have hany : rules.steps.any Step.isDefault = false := by
            rw [List.any_eq_false]
            intro step hstep
            cases step with
            | default d => simpa [← hnull, Value.isZero] using hdefault d hstep
            | _ => simp [Step.isDefault]
          simp [← hnull, hany]

namespace Evaluation

variable {plans : Plans} {schema : Schema} {owner : String} {field : Field}
  {steps : List Step} {value : Value}

/-- The elements that a run leaves are those the statement of a frame allows. -/
theorem leavesItems_runElements {child : Plan} {items : List Value}
    (hbelow : ∀ entries, .map entries ∈ items →
      child.Leaves plans entries (child.evaluate plans entries).2) (field : String) (index : Nat) :
    child.LeavesItems plans items (runElements (child.evaluate plans) field index items).2 := by
  induction items generalizing index with
  | nil => exact .nil child
  | cons item rest ih =>
      cases item with
      | map entries =>
          have hleft := hbelow entries List.mem_cons_self
          have hrest := ih
            (fun entries hentries => hbelow entries (List.mem_cons_of_mem _ hentries)) (index + 1)
          rw [runElements]
          split
          · next hrun =>
            rw [hrun] at hleft
            exact .pass (by rw [hrun]) hleft hrest
          · next hrun =>
            rw [hrun] at hleft
            exact .stop (by simp [hrun]) hleft
          · next hrun =>
            rw [hrun] at hleft
            exact .stop (by simp [hrun]) hleft
      | _ => exact .refused (by simp)

/-- The items of a value are the items of what is left of it. -/
theorem runItems_snd (child : Evaluation) (field : String) (value : Value) :
    (runItems child field value).2 =
      match value.items? with
      | some items => value.withItems (runElements child field 0 items).2
      | none => value := by
  cases value with
  | pair first second =>
      obtain ⟨first', second', hleft, hrun⟩ := runItems_pair child field first second
      simp only [hrun, Value.items?, hleft, Value.withItems]
  | _ => rfl

/-- The steps that do not look into a value put the default in its place where it is zero. -/
theorem leaves_effective (hsteps : schema.fieldSteps owner field = .ok steps)
    (helements : ∀ type, .elements type ∈ steps →
      plans.lookup type = none ∨ value.items? = none) :
    FieldRules.Leaves plans ⟨field, steps⟩ value (field.effective value) := by
  have hdefault : ∀ d, .default d ∈ steps ↔ Schema.defaultOf field = some d :=
    fun d => Schema.default_mem_fieldSteps_iff hsteps
  unfold Field.effective
  split
  · next d hd =>
    split
    · next hzero => exact .replaced ((hdefault d).2 hd) hzero
    · next hzero =>
      exact .kept (fun _ _ => Bool.eq_false_iff.2 hzero) helements
  · next hno =>
    refine .kept (fun d hd => ?_) helements
    rw [hdefault, hno] at hd
    contradiction

/-- The steps of a field leave its value as they should, if plans leave the
payloads that are its items as they should. -/
theorem leaves_runSteps (hsteps : schema.fieldSteps owner field = .ok steps)
    (hbelow : ∀ type child, plans.lookup type = some child →
      ∀ items, value.items? = some items → ∀ entries, .map entries ∈ items →
        child.Leaves plans entries (child.evaluate plans entries).2) :
    FieldRules.Leaves plans ⟨field, steps⟩ value
      (runSteps plans (fun plan => plan.evaluate plans) field steps value).2 := by
  have hmem : ∀ target, .elements target ∈ steps ↔
      ∃ type, schema.elementType? field = some type ∧ target = type.name :=
    fun target => Schema.elements_mem_fieldSteps_iff hsteps
  rw [runSteps_fieldSteps _ _ hsteps]
  cases helement : schema.elementType? field with
  | none =>
      have hleft : FieldRules.Leaves plans ⟨field, steps⟩ value (field.effective value) :=
        leaves_effective hsteps (by simp [hmem, helement])
      split <;> exact hleft
  | some type =>
      -- An array has no default, and the only check that it can fail is that it is there.
      have harray := Schema.kind_of_elementType? helement
      have hown : ∀ target, .elements target ∈ steps → target = type.name := by
        simp [hmem, helement]
      have hkept : (plans.lookup type.name = none ∨ value.items? = none) →
          FieldRules.Leaves plans ⟨field, steps⟩ value value := by
        intro h
        have hleft : FieldRules.Leaves plans ⟨field, steps⟩ value (field.effective value) :=
          leaves_effective hsteps fun target htarget => hown target htarget ▸ h
        rwa [Field.effective_of_array harray] at hleft
      rw [Field.effective_of_array harray, Field.failure?_of_array harray]
      cases hmissing : field.isMissing value with
      | true =>
          have hitems : value.items? = none := by
            rw [Field.isMissing, harray] at hmissing
            cases value <;> simp_all [Value.isZero, Value.items?]
          exact hkept (.inr hitems)
      | false =>
          simp only [runStep, Bool.false_eq_true, if_false]
          cases hchild : plans.lookup type.name with
          | none => exact hkept (.inl hchild)
          | some child =>
              simp only [runItems_snd]
              cases hitems : value.items? with
              | none => exact hkept (.inr hitems)
              | some items =>
                  exact .elements ((hmem _).2 ⟨type, helement, rfl⟩) hchild hitems
                    (leavesItems_runElements (hbelow _ _ hchild _ hitems) field.name 0)

/-! ## Payloads -/

/-- **What the fields that are reached leave is written into the payload**, each of
them going by the value that the payload had in the beginning. -/
theorem exists_runFields_snd (evaluate : Plan → Evaluation) {fields : List FieldRules}
    (hnames : (fields.map (·.field.name)).Nodup) (payload : Entries) :
    ∃ reached,
      UpTo (fun rules => (runSteps plans evaluate rules.field rules.steps
        (Entries.get payload rules.field.name)).1 = .ok none) fields reached ∧
      (runFields plans evaluate fields payload).2 =
        Entries.writeAll payload (reached.map fun rules => (rules.field.name,
          (runSteps plans evaluate rules.field rules.steps
            (Entries.get payload rules.field.name)).2)) := by
  induction fields generalizing payload with
  | nil => exact ⟨[], .nil, rfl⟩
  | cons rules rest ih =>
      rw [List.map_cons, List.nodup_cons] at hnames
      rw [runFields]
      generalize hrun : runField plans evaluate rules payload = run
      obtain ⟨verdict, left⟩ := run
      obtain ⟨hverdict, hleft⟩ := Prod.mk.inj hrun
      -- The fields behind the first find in what it left what they would have found before.
      have hbehind : ∀ later ∈ rest, Entries.get left later.field.name =
          Entries.get payload later.field.name := by
        intro later hlater
        rw [← hleft, Entries.get_assign, if_neg]
        intro heq
        exact hnames.1 (heq ▸ List.mem_map_of_mem hlater)
      obtain ⟨reached, hreached, hrest⟩ := ih hnames.2 left
      by_cases hpass : verdict = .ok none
      · subst hpass
        have hsame : (reached.map fun later => (later.field.name,
              (runSteps plans evaluate later.field later.steps
                (Entries.get left later.field.name)).2)) =
            reached.map fun later => (later.field.name,
              (runSteps plans evaluate later.field later.steps
                (Entries.get payload later.field.name)).2) := by
          apply List.map_congr_left
          intro later hlater
          rw [hbehind later (hreached.isPrefix.subset hlater)]
        refine ⟨rules :: reached, .pass hverdict (hreached.congr ?_), ?_⟩
        · intro later hlater
          rw [hbehind later hlater]
        · show (runFields plans evaluate rest left).2 = _
          rw [hrest, hsame, ← hleft]
          rfl
      · refine ⟨[rules], .stop (by rw [hverdict]; exact hpass), ?_⟩
        split
        · next heq => exact absurd (Prod.mk.inj heq).1 hpass
        · exact hleft.symm

/-- The verdict of a plan depends on the values of its fields only. -/
theorem evaluate_fst_congr (hnames : ∀ fields ∈ schema.fieldLists, (fields.map (·.name)).Nodup)
    {plan : Plan} (hplan : schema.HasPlan plan) {payload other : Entries}
    (hagree : ∀ rules ∈ plan.fields,
      Entries.get other rules.field.name = Entries.get payload rules.field.name) :
    (plan.evaluate plans other).1 = (plan.evaluate plans payload).1 := by
  obtain ⟨hnodup, -⟩ := hplan.fieldSteps hnames
  rw [evaluate_eq_runFields, evaluate_eq_runFields, runFields_fst _ _ hnodup,
    runFields_fst _ _ hnodup]
  congr 1
  apply List.map_congr_left
  intro rules hmem
  rw [hagree rules hmem]

/-- A plan of a schema leaves a payload as it should. -/
theorem leaves_evaluate (hnames : ∀ fields ∈ schema.fieldLists, (fields.map (·.name)).Nodup)
    (hplans : ∀ entry ∈ plans, schema.HasPlan entry.2) {plan : Plan}
    (hplan : schema.HasPlan plan) (payload : Entries) :
    plan.Leaves plans payload (plan.evaluate plans payload).2 := by
  induction payload using Entries.items_induction generalizing plan with
  | holds payload ih =>
      obtain ⟨hnodup, owner, hsteps⟩ := hplan.fieldSteps hnames
      obtain ⟨reached, hreached, hleft⟩ := exists_runFields_snd
        (fun plan => plan.evaluate plans) hnodup payload
      rw [evaluate_eq_runFields, hleft]
      have hvalues : ∀ rules ∈ reached, rules.Leaves plans (Entries.get payload rules.field.name)
          (runSteps plans (fun plan => plan.evaluate plans) rules.field rules.steps
            (Entries.get payload rules.field.name)).2 := by
        intro rules hmem
        apply leaves_runSteps (hsteps rules (hreached.isPrefix.subset hmem))
        intro type child hchild items hitems entries hentries
        exact ih _ _ entries hitems hentries (.of_lookup hplans hchild)
      generalize hwrites : (reached.map fun rules => (rules.field.name,
        (runSteps plans (fun plan => plan.evaluate plans) rules.field rules.steps
          (Entries.get payload rules.field.name)).2)) = writes
      have hwritten : (writes.map (·.1)).Nodup := by
        rw [← hwrites, List.map_map]
        exact hnodup.sublist (hreached.isPrefix.sublist.map _)
      refine .intro (hreached.congr ?_) ?_ ?_ ?_
      · intro rules hmem
        exact runSteps_eq_none_iff (hsteps rules hmem)
      · have hadded : (reached.filter (·.adds payload)) = reached.filter fun rules =>
            Entries.isAdded payload (rules.field.name,
              (runSteps plans (fun plan => plan.evaluate plans) rules.field rules.steps
                (Entries.get payload rules.field.name)).2) :=
          List.filter_congr fun rules hmem => (hvalues rules hmem).isAdded_eq.symm
        rw [Entries.map_fst_writeAll hwritten, hadded, ← hwrites, List.filter_map, List.map_map]
        rfl
      · intro index entry hentry hother
        apply Entries.getElem?_writeAll hentry
        rw [← hwrites, List.forall_mem_map]
        exact hother
      · intro rules hmem
        have hwrite := Entries.get_writeAll hwritten
          (hwrites ▸ List.mem_map_of_mem hmem) payload
        rw [hwrite]
        exact hvalues rules hmem

end Evaluation

/-! ## Nothing else is left -/

section Unique

variable {schema : Schema} {plans : Plans} {owner : String}

theorem Plan.LeavesItems.unique {plan : Plan} {items left left' : List Value}
    (hbelow : ∀ entries, .map entries ∈ items → ∀ left left', plan.Leaves plans entries left →
      plan.Leaves plans entries left' → left = left')
    (h : plan.LeavesItems plans items left) (h' : plan.LeavesItems plans items left') :
    left = left' := by
  induction items generalizing left left' with
  | nil => cases h; cases h'; rfl
  | cons item rest ih =>
      have hrest : ∀ entries, .map entries ∈ rest → ∀ left left', plan.Leaves plans entries left →
          plan.Leaves plans entries left' → left = left' :=
        fun entries hentries => hbelow entries (List.mem_cons_of_mem _ hentries)
      have hitem : ∀ entries, item = .map entries → ∀ left left', plan.Leaves plans entries left →
          plan.Leaves plans entries left' → left = left' :=
        fun entries heq => hbelow entries (heq ▸ List.mem_cons_self)
      cases h with
      | pass hpass hleft hmore =>
          cases h' with
          | pass _ hleft' hmore' => rw [hitem _ rfl _ _ hleft hleft', ih hrest hmore hmore']
          | stop hstop _ => exact absurd hpass hstop
          | refused hno => exact absurd rfl (hno _)
      | stop hstop hleft =>
          cases h' with
          | pass hpass _ _ => exact absurd hpass hstop
          | stop _ hleft' => rw [hitem _ rfl _ _ hleft hleft']
          | refused hno => exact absurd rfl (hno _)
      | refused hno =>
          cases h' with
          | pass _ _ _ => exact absurd rfl (hno _)
          | stop _ _ => exact absurd rfl (hno _)
          | refused _ => rfl

/-- The rules of a field leave one value only. -/
theorem FieldRules.Leaves.unique {rules : FieldRules} {value left left' : Value}
    (hsteps : schema.fieldSteps owner rules.field = .ok rules.steps)
    (hbelow : ∀ (type : String) (child : Plan) (items : List Value),
      plans.lookup type = some child → value.items? = some items → ∀ left left',
        child.LeavesItems plans items left → child.LeavesItems plans items left' → left = left')
    (h : rules.Leaves plans value left) (h' : rules.Leaves plans value left') : left = left' := by
  -- A field has one default, and where its value has items to be evaluated it has none.
  have hdefault : ∀ d, .default d ∈ rules.steps ↔ Schema.defaultOf rules.field = some d :=
    fun d => Schema.default_mem_fieldSteps_iff hsteps
  have helement : ∀ target, .elements target ∈ rules.steps ↔
      ∃ type, schema.elementType? rules.field = some type ∧ target = type.name :=
    fun target => Schema.elements_mem_fieldSteps_iff hsteps
  have hnone : ∀ d target, .default d ∈ rules.steps → .elements target ∉ rules.steps := by
    intro d target hd htarget
    obtain ⟨type, htype, -⟩ := (helement target).1 htarget
    have harray := Schema.kind_of_elementType? htype
    simp [hdefault, Schema.defaultOf, harray] at hd
  cases h with
  | replaced hd hzero =>
      cases h' with
      | replaced hd' _ =>
          rw [hdefault] at hd hd'
          rw [Option.some.inj (hd.symm.trans hd')]
      | elements hstep _ _ _ => exact absurd hstep (hnone _ _ hd)
      | kept hkept _ => simp [hkept _ hd] at hzero
  | elements hstep hchild hitems hleft =>
      cases h' with
      | replaced hd _ => exact absurd hstep (hnone _ _ hd)
      | elements hstep' hchild' hitems' hleft' =>
          obtain ⟨type, htype, rfl⟩ := (helement _).1 hstep
          obtain ⟨type', htype', rfl⟩ := (helement _).1 hstep'
          obtain rfl := Option.some.inj (htype.symm.trans htype')
          obtain rfl := Option.some.inj (hchild.symm.trans hchild')
          obtain rfl := Option.some.inj (hitems.symm.trans hitems')
          rw [hbelow _ _ _ hchild hitems _ _ hleft hleft']
      | kept _ hno =>
          obtain hno | hno := hno _ hstep
          · simp [hno] at hchild
          · simp [hno] at hitems
  | kept hkept hno =>
      cases h' with
      | replaced hd hzero => simp [hkept _ hd] at hzero
      | elements hstep hchild hitems _ =>
          obtain hno | hno := hno _ hstep
          · simp [hno] at hchild
          · simp [hno] at hitems
      | kept _ _ => rfl

/-- No text is a key twice in what is left of a payload with proper keys. -/
theorem Plan.nodup_texts_of_keys {payload left : Entries} {reached : List FieldRules}
    (hkeys : Value.AreKeys (payload.map (·.1))) (hnames : (reached.map (·.field.name)).Nodup)
    (hleft : left.map (·.1) = payload.map (·.1) ++
      (reached.filter (·.adds payload)).map (.text ·.field.name)) :
    ((left.map (·.1)).filterMap Value.text?).Nodup := by
  have hadded : ((reached.filter (·.adds payload)).map (Value.text ·.field.name)).filterMap
      Value.text? = (reached.filter (·.adds payload)).map (·.field.name) := by
    rw [List.filterMap_map]
    exact congrFun List.filterMap_eq_map _
  rw [hleft, List.filterMap_append, hadded, List.nodup_append']
  refine ⟨hkeys.nodup_texts, hnames.sublist (List.filter_sublist.map _), ?_⟩
  intro name hname hmem
  obtain ⟨rules, hrules, rfl⟩ := List.mem_map.1 hmem
  have hadds := (List.mem_filter.1 hrules).2
  rw [FieldRules.adds, Bool.and_eq_true, Option.isNone_iff_eq_none,
    Entries.find?_eq_none_iff] at hadds
  obtain ⟨key, hkey, htext⟩ := List.mem_filterMap.1 hname
  cases key <;> simp [Value.text?] at htext
  exact hadds.1 (htext ▸ hkey)

/-- What is left in a place is what was there, if the field of its key was not reached. -/
theorem Plan.getElem?_of_notReached {payload left : Entries} {reached : List FieldRules}
    (hkeys : left.map (·.1) = payload.map (·.1) ++
      (reached.filter (·.adds payload)).map (.text ·.field.name))
    (hothers : ∀ (index : Nat) (entry : Value × Value), payload[index]? = some entry →
      (∀ rules ∈ reached, entry.1 ≠ .text rules.field.name) → left[index]? = some entry)
    {index : Nat} {entry : Value × Value} (hentry : left[index]? = some entry)
    (h : ∀ rules ∈ reached, entry.1 ≠ .text rules.field.name) : payload[index]? = some entry := by
  have hkey : (left.map (·.1))[index]? = some entry.1 := by rw [List.getElem?_map, hentry]; rfl
  rw [hkeys, List.getElem?_append, List.length_map] at hkey
  split at hkey
  · rw [List.getElem?_map] at hkey
    obtain ⟨old, hold, heq⟩ := Option.map_eq_some_iff.1 hkey
    have hsame := hothers index old hold (heq ▸ h)
    rw [hold, ← hsame, hentry]
  · obtain ⟨rules, hrules, heq⟩ := List.mem_map.1 (List.mem_of_getElem? hkey)
    exact absurd heq.symm (h rules (List.mem_filter.1 hrules).1)

/-- A payload with proper keys is left in one way only. -/
theorem Plan.Leaves.unique (hnames : ∀ fields ∈ schema.fieldLists, (fields.map (·.name)).Nodup)
    (hplans : ∀ entry ∈ plans, schema.HasPlan entry.2) {plan : Plan}
    (hplan : schema.HasPlan plan) {payload left left' : Entries}
    (hkeyed : (Value.map payload).Keyed) (h : plan.Leaves plans payload left)
    (h' : plan.Leaves plans payload left') : left = left' := by
  induction payload using Entries.items_induction generalizing plan left left' with
  | holds payload ih =>
      obtain ⟨hnodup, owner, hsteps⟩ := hplan.fieldSteps hnames
      obtain @⟨_, _, _, reached, hreached, hkeys, hothers, hvalues⟩ := h
      obtain @⟨_, _, _, reached', hreached', hkeys', hothers', hvalues'⟩ := h'
      obtain rfl : reached = reached' := hreached.unique hreached'
      obtain ⟨hproper, hvalued⟩ := Value.keyed_map_iff.1 hkeyed
      have hnodup := hnodup.sublist (hreached.isPrefix.sublist.map _)
      have hget : ∀ rules ∈ reached, Entries.get left rules.field.name =
          Entries.get left' rules.field.name := by
        intro rules hmem
        refine FieldRules.Leaves.unique (hsteps rules (hreached.isPrefix.subset hmem)) ?_
          (hvalues rules hmem) (hvalues' rules hmem)
        intro type child items hchild hitems _ _ hleft hleft'
        refine Plan.LeavesItems.unique ?_ hleft hleft'
        intro entries hentries _ _ h h'
        have hitem := (Entries.keyed_get hvalued).items hitems _ hentries
        exact ih _ _ entries hitems hentries (.of_lookup hplans hchild) hitem h h'
      apply List.ext_getElem?
      intro index
      have hkey : (left[index]?).map (·.1) = (left'[index]?).map (·.1) := by
        rw [← List.getElem?_map, ← List.getElem?_map, hkeys, hkeys']
      cases hentry : left[index]? with
      | none =>
          rw [hentry] at hkey
          exact (Option.map_eq_none_iff.1 hkey.symm).symm
      | some entry =>
          rw [hentry] at hkey
          obtain ⟨entry', hentry', heq⟩ := Option.map_eq_some_iff.1 hkey.symm
          rw [hentry', Option.some.injEq]
          by_cases h : ∀ rules ∈ reached, entry.1 ≠ .text rules.field.name
          · have hold := Plan.getElem?_of_notReached hkeys hothers hentry h
            have hold' := Plan.getElem?_of_notReached hkeys' hothers' hentry' (heq ▸ h)
            exact Option.some.inj (hold.symm.trans hold')
          · push Not at h
            obtain ⟨rules, hmem, hname⟩ := h
            have hvalue := hget rules hmem
            obtain ⟨key, value⟩ := entry
            obtain ⟨key', value'⟩ := entry'
            obtain rfl : key = .text rules.field.name := hname
            obtain rfl : key' = .text rules.field.name := heq
            rw [Entries.get_of_mem (Plan.nodup_texts_of_keys hproper hnodup hkeys)
                (List.mem_of_getElem? hentry),
              Entries.get_of_mem (Plan.nodup_texts_of_keys hproper hnodup hkeys')
                (List.mem_of_getElem? hentry')] at hvalue
            rw [hvalue]

end Unique

/-- **Validation touches defaults only.**  With plans of one schema, each of whose
field lists has distinct names, validation leaves a payload as `Plan.Leaves` says,
whatever its verdict is, and a payload with proper keys can be left so in one way
only.  The verdict depends on the values of the fields of the plan and on nothing
else. -/
theorem Schema.evaluate_leaves (schema : Schema)
    (hnames : ∀ fields ∈ schema.fieldLists, (fields.map (·.name)).Nodup) (plans : Plans)
    (hplans : ∀ entry ∈ plans, schema.HasPlan entry.2) (plan : Plan)
    (hplan : schema.HasPlan plan) (payload : Entries) :
    plan.Leaves plans payload (plan.evaluate plans payload).2 ∧
    ((Value.map payload).Keyed → ∀ left, plan.Leaves plans payload left →
      left = (plan.evaluate plans payload).2) ∧
    ∀ other, (∀ rules ∈ plan.fields,
        Entries.get other rules.field.name = Entries.get payload rules.field.name) →
      (plan.evaluate plans other).1 = (plan.evaluate plans payload).1 := by
  have hleft := Evaluation.leaves_evaluate hnames hplans hplan payload
  refine ⟨hleft, fun hkeyed left h => h.unique hnames hplans hplan hkeyed hleft, ?_⟩
  exact fun other hagree => Evaluation.evaluate_fst_congr hnames hplan hagree

theorem Schema.trees_evaluate_leaves :
    ∃ plans, trees.typePlans.outcome = .ok plans ∧ ∃ plan, ("Node", plan) ∈ plans ∧
      ∃ left : Entries, left.map (·.1) = [.text "below", .text "label"] ∧
        plan.Leaves plans twig left ∧
        (∀ other, plan.Leaves plans twig other → other = left) ∧
        ∀ other, (∀ rules ∈ plan.fields,
            Entries.get other rules.field.name = Entries.get twig rules.field.name) →
          (plan.evaluate plans other).1 = (plan.evaluate plans twig).1 := by
  have hrun : ∃ plans, trees.typePlans.outcome = .ok plans ∧ ∃ plan, ("Node", plan) ∈ plans ∧
      (plan.evaluate plans twig).2.map (·.1) = [.text "below", .text "label"] :=
    ⟨_, rfl, _, List.mem_cons_self, rfl⟩
  obtain ⟨plans, hplans, plan, hplan, hkeys⟩ := hrun
  have hall : ∀ entry ∈ plans, trees.HasPlan entry.2 :=
    fun entry hentry => hasPlan_of_mem_typePlans hplans hentry
  have hkeyed : (Value.map twig).Keyed := by
    simp [twig, Value.Keyed, Value.KeyedEntries, Value.KeyedItems, Value.AreKeys, Value.isKey]
  obtain ⟨hleft, honly, hagree⟩ :=
    trees.evaluate_leaves (by decide) plans hall plan (hall _ hplan) twig
  exact ⟨plans, hplans, plan, hplan, _, hkeys, hleft, honly hkeyed, hagree⟩

end RpcBindings
