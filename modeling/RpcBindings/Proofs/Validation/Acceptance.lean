import RpcBindings.Proofs.Validation.Depth
import RpcBindings.Proofs.Validation.Steps
import RpcBindings.Schema.Reader

/-!
# RpcBindings.Proofs.Validation.Acceptance

What validation decides.  `Schema.Accepts` says directly, by the declaration of
a type, which payloads are in order; it mentions neither plans nor steps.  The
plans that are made of a schema find nothing wrong with a payload exactly when
the payload is accepted in this sense, and they are never short of a plan.

Declared types may refer to each other in cycles, so the recursion of
`Schema.Accepts`, and the induction with it, is on the payload.
-/

namespace RpcBindings

/-! ## What a payload must be like -/

namespace Field

/-- A text field with allowed texts has one of them, the empty text or nothing. -/
def Allows (field : Field) (value : Value) : Prop :=
  field.type.kind = .string → ∀ allowed, field.enum = some allowed → allowed ≠ [] →
    value = .null ∨ ∃ text, value = .text text ∧ (text = "" ∨ text ∈ allowed)

/-- Only what is there already has items: a default has none. -/
theorem effective_of_items? {field : Field} {value : Value} {items : List Value}
    (h : (field.effective value).items? = some items) : field.effective value = value := by
  unfold effective at h ⊢
  split at h
  · next default _ =>
    split at h
    · cases default <;> simp [DefaultValue.value, Value.items?] at h
    · next hzero => rw [if_neg hzero]
  · rfl

/-- Items of the value that a field checks are items of the value it was given. -/
theorem items?_of_effective {field : Field} {value : Value} {items : List Value}
    (h : (field.effective value).items? = some items) : value.items? = some items := by
  rwa [effective_of_items? h] at h

end Field

/-- The mappings among the items of a value are smaller than the value. -/
theorem Value.sizeOf_lt_of_mem_items? {value : Value} {items : List Value} {entries : Entries}
    (h : value.items? = some items) (hmem : .map entries ∈ items) :
    sizeOf entries < sizeOf value := by
  cases value with
  | list own =>
      simp only [Value.items?, Option.some.injEq] at h
      subst h
      have hlt := List.sizeOf_lt_of_mem hmem
      rw [Value.map.sizeOf_spec] at hlt
      rw [Value.list.sizeOf_spec]
      omega
  | pair key own =>
      simp only [Value.items?, Option.some.injEq] at h
      subst h
      simp only [List.mem_cons, List.not_mem_nil, or_false] at hmem
      obtain rfl | rfl := hmem
      · rw [Value.pair.sizeOf_spec, Value.map.sizeOf_spec]
        omega
      · rw [Value.pair.sizeOf_spec, Value.map.sizeOf_spec]
        omega
  | bytes bs =>
      simp only [Value.items?, Option.some.injEq] at h
      subst h
      simp at hmem
  | _ => simp [Value.items?] at h

/-- The mappings among the items that a payload has under a name are smaller than the payload. -/
theorem Entries.sizeOf_lt_of_mem_get {name : String} {payload : Entries} {items : List Value}
    {entries : Entries} (h : (Entries.get payload name).items? = some items)
    (hmem : .map entries ∈ items) : sizeOf entries < sizeOf payload := by
  have hlt := Value.sizeOf_lt_of_mem_items? h hmem
  unfold Entries.get at h hlt
  cases hfind : Entries.find? payload name with
  | none => simp [hfind, Value.items?] at h
  | some value =>
      have := Schema.sizeOf_lt_of_find? hfind
      rw [hfind, Option.getD_some] at hlt
      omega

/-- The mappings among the items of a field are smaller than the payload. -/
theorem Entries.sizeOf_lt_of_mem_items? {field : Field} {payload : Entries} {items : List Value}
    {entries : Entries} (h : (field.effective (Entries.get payload field.name)).items? = some items)
    (hmem : .map entries ∈ items) : sizeOf entries < sizeOf payload :=
  Entries.sizeOf_lt_of_mem_get (Field.items?_of_effective h) hmem

/-- Induction on the payloads that a payload holds as items. -/
@[elab_as_elim]
theorem Entries.items_induction {motive : Entries → Prop}
    (holds : ∀ payload, (∀ name items entries, (Entries.get payload name).items? = some items →
      .map entries ∈ items → motive entries) → motive payload) (payload : Entries) :
    motive payload :=
  holds payload fun _ _ entries _ _ => items_induction holds entries
termination_by sizeOf payload
decreasing_by exact Entries.sizeOf_lt_of_mem_get ‹_› ‹_›

/-- A payload is accepted by a type if every field of the type, once its default
stands in for a zero value, has its value where it is required and checked, has
an allowed text, and where it is an array of a declared type, is falsy or a
sequence of nothing but mappings that are accepted by that type. -/
def Schema.Accepts (schema : Schema) (type : ObjectType) (payload : Entries) : Prop :=
  ∀ field ∈ type.properties,
    let value := field.effective (Entries.get payload field.name)
    (field.required → field.type.kind.isChecked → value.isZero field.type.kind = false) ∧
    field.Allows value ∧
    ∀ element, schema.elementType? field = some element →
      value.isTruthy = false ∨
        ∃ items, ∃ _hitems : value.items? = some items,
          ∀ item, ∀ _hmem : item ∈ items,
            ∃ entries, ∃ _hmap : item = .map entries, schema.Accepts element entries
termination_by sizeOf payload
decreasing_by
  subst _hmap
  exact Entries.sizeOf_lt_of_mem_items? _hitems _hmem

/-! ## One field -/

namespace Field

/-- No member is reported exactly where the value is one that the field allows. -/
theorem disallowed?_eq_none_iff (field : Field) (value : Value) :
    field.disallowed? value = none ↔ field.Allows value := by
  have hallowed : ∀ allowed, value.isAllowed allowed = true ↔
      value = .null ∨ ∃ text, value = .text text ∧ (text = "" ∨ text ∈ allowed) := by
    intro allowed
    cases value <;> simp [Value.isAllowed]
  unfold disallowed? Allows
  split
  · next first rest hkind henum =>
    simp only [hkind, henum, Option.some.injEq, forall_const, forall_eq', ← hallowed]
    simp
  · next hno =>
    simp only [true_iff]
    intro hkind allowed henum hne
    cases allowed with
    | nil => exact absurd rfl hne
    | cons first rest => exact absurd henum (hno first rest hkind)

/-- A field finds nothing wrong with a value that is not missing and is allowed. -/
theorem failure?_eq_none_iff (field : Field) (value : Value) :
    field.failure? value = none ↔
      (field.required → field.type.kind.isChecked → value.isZero field.type.kind = false) ∧
        field.Allows value := by
  have hmissing : field.isMissing value = false ↔
      (field.required → field.type.kind.isChecked → value.isZero field.type.kind = false) := by
    unfold isMissing
    cases field.required <;> cases field.type.kind.isChecked <;> simp
  rw [← hmissing, ← disallowed?_eq_none_iff, failure?]
  cases field.isMissing value <;> simp

end Field

namespace Evaluation

variable {child : Evaluation} {schema : Schema} {plans : Plans}

/-- All elements pass exactly where each of them is a mapping that its plan accepts. -/
theorem runElements_eq_none_iff (child : Evaluation) (field : String) (index : Nat)
    (items : List Value) :
    (runElements child field index items).1 = .ok none ↔
      ∀ item ∈ items, ∃ entries, item = .map entries ∧ (child entries).1 = .ok none := by
  induction items generalizing index with
  | nil => simp [runElements]
  | cons item rest ih =>
      rw [List.forall_mem_cons, ← ih (index + 1)]
      cases item with
      | map entries =>
          simp only [runElements, Value.map.injEq, exists_eq_left']
          split <;> next hrun => simp [hrun]
      | _ => simp [runElements]

/-- A value without items passes for elements exactly where it counts as empty. -/
theorem refuseAtoms_eq_none_iff (field : String) (value : Value) :
    refuseAtoms field value = .ok none ↔ value.isTruthy = false := by
  unfold refuseAtoms
  cases value.isTruthy with
  | false => simp
  | true => cases value.firstAtom? <;> simp

/-- The items of a value are in order if it has none, being falsy, or if it is a
sequence of mappings that are in order. -/
theorem runItems_eq_none_iff (child : Evaluation) (field : String) (value : Value) :
    (runItems child field value).1 = .ok none ↔
      value.isTruthy = false ∨ ∃ items, value.items? = some items ∧
        ∀ item ∈ items, ∃ entries, item = .map entries ∧ (child entries).1 = .ok none := by
  cases value with
  | list items =>
      simp only [runItems, runElements_eq_none_iff, Value.isTruthy, Value.items?,
        Option.some.injEq, exists_eq_left']
      cases items <;> simp
  | pair first second =>
      have hpair := runElements_eq_none_iff child field 0 [first, second]
      simp only [Value.isTruthy, Value.items?, Option.some.injEq, exists_eq_left', ← hpair,
        Bool.true_eq_false, false_or]
      rw [runItems]
      split <;> next hrun => rw [hrun]
  | bytes bs =>
      simp only [runItems, refuseAtoms_eq_none_iff, Value.isTruthy, Value.items?,
        Option.some.injEq, exists_eq_left']
      cases bs <;> simp
  | _ => simp [runItems, refuseAtoms_eq_none_iff, Value.items?]

/-- Only an element can be short of a plan. -/
theorem runElements_eq_noPlan {field name : String} {index : Nat} {items : List Value}
    (h : (runElements child field index items).1 = .error (.noPlan name)) :
    ∃ entries, .map entries ∈ items ∧ (child entries).1 = .error (.noPlan name) := by
  induction items generalizing index with
  | nil => simp [runElements] at h
  | cons item rest ih =>
      cases item with
      | map entries =>
          rw [runElements] at h
          split at h
          · obtain ⟨found, hmem, hfound⟩ := ih h
            exact ⟨found, List.mem_cons_of_mem _ hmem, hfound⟩
          · simp at h
          · next hrun => exact ⟨entries, List.mem_cons_self, by rw [hrun]; exact h⟩
      | _ => simp [runElements] at h

/-- A plan is found missing among elements only while one of them is evaluated. -/
theorem runItems_eq_noPlan {field name : String} {value : Value}
    (h : (runItems child field value).1 = .error (.noPlan name)) :
    ∃ items entries, value.items? = some items ∧ .map entries ∈ items ∧
      (child entries).1 = .error (.noPlan name) := by
  have hrefuse : refuseAtoms field value ≠ .error (.noPlan name) := by
    unfold refuseAtoms
    split
    · simp
    · split <;> simp
  cases value with
  | list items =>
      obtain ⟨entries, hmem, hentries⟩ := runElements_eq_noPlan h
      exact ⟨items, entries, rfl, hmem, hentries⟩
  | pair first second =>
      have hrun : (runElements child field 0 [first, second]).1 = .error (.noPlan name) := by
        rw [runItems] at h
        split at h <;> next hrun => rw [hrun]; exact h
      obtain ⟨entries, hmem, hentries⟩ := runElements_eq_noPlan hrun
      exact ⟨[first, second], entries, rfl, hmem, hentries⟩
  | _ => exact absurd h hrefuse

/-! ## Plans decide acceptance -/

/-- The elements of a field are evaluated by the plan of their type. -/
theorem runStep_elements (hplans : schema.typePlans.outcome = .ok plans)
    (evaluate : Plan → Evaluation) {field : Field} {element : ObjectType}
    (helement : schema.elementType? field = some element) (value : Value) :
    element ∈ schema.types ∧ ∃ plan, plans.lookup element.name = some plan ∧
      runStep plans evaluate field (.elements element.name) value =
        runItems (evaluate plan) field.name value := by
  obtain ⟨target, -, hfind⟩ := Option.bind_eq_some_iff.1 helement
  have hmem := List.mem_of_find?_eq_some hfind
  obtain ⟨rules, hlookup, -⟩ := Schema.lookup_typePlans hplans hmem
  exact ⟨hmem, _, hlookup, by rw [runStep, hlookup]⟩

/-- The plan of a type finds nothing wrong with just the payloads that the type accepts. -/
theorem evaluate_eq_none_iff (hplans : schema.typePlans.outcome = .ok plans)
    (hnames : ∀ type ∈ schema.types, (type.properties.map (·.name)).Nodup)
    {type : ObjectType} {plan : Plan} (htype : type ∈ schema.types)
    (hplan : plans.lookup type.name = some plan) (payload : Entries) :
    (plan.evaluate plans payload).1 = .ok none ↔ schema.Accepts type payload := by
  induction payload using Entries.items_induction generalizing type plan with
  | holds payload ih =>
      obtain ⟨rules, hlookup, hrules⟩ := Schema.lookup_typePlans hplans htype
      obtain rfl : plan = ⟨type.name, rules⟩ := Option.some.inj (hplan.symm.trans hlookup)
      rw [evaluate_eq_runFields, runFields_eq_none_iff _ _ hrules (hnames type htype),
        Schema.Accepts]
      apply forall₂_congr
      intro field _
      simp only [Field.failure?_eq_none_iff, and_assoc]
      apply and_congr_right'
      apply and_congr_right'
      apply forall₂_congr
      intro element helement
      obtain ⟨hmem, child, hchild, hstep⟩ := runStep_elements hplans
        (fun plan => plan.evaluate plans) helement
        (field.effective (Entries.get payload field.name))
      rw [hstep, runItems_eq_none_iff]
      apply or_congr_right
      simp only [exists_prop]
      apply exists_congr
      intro items
      apply and_congr_right
      intro hitems
      apply forall₂_congr
      intro item hitem
      apply exists_congr
      intro entries
      apply and_congr_right
      rintro rfl
      exact ih _ _ entries (Field.items?_of_effective hitems) hitem hmem hchild

/-- The plans of a schema are complete: no evaluation is short of one. -/
theorem evaluate_ne_noPlan (hplans : schema.typePlans.outcome = .ok plans)
    (hnames : ∀ type ∈ schema.types, (type.properties.map (·.name)).Nodup)
    {type : ObjectType} {plan : Plan} (htype : type ∈ schema.types)
    (hplan : plans.lookup type.name = some plan) (payload : Entries) (name : String) :
    (plan.evaluate plans payload).1 ≠ .error (.noPlan name) := by
  induction payload using Entries.items_induction generalizing type plan with
  | holds payload ih =>
      obtain ⟨rules, hlookup, hrules⟩ := Schema.lookup_typePlans hplans htype
      obtain rfl : plan = ⟨type.name, rules⟩ := Option.some.inj (hplan.symm.trans hlookup)
      rw [evaluate_eq_runFields]
      intro herror
      obtain ⟨field, _, element, helement, hrun⟩ :=
        runFields_eq_error _ _ hrules (hnames type htype) herror
      obtain ⟨hmem, child, hchild, hstep⟩ := runStep_elements hplans
        (fun plan => plan.evaluate plans) helement
        (field.effective (Entries.get payload field.name))
      rw [hstep] at hrun
      obtain ⟨items, entries, hitems, hitem, hentries⟩ := runItems_eq_noPlan hrun
      exact ih _ _ entries (Field.items?_of_effective hitems) hitem hmem hchild hentries

end Evaluation

/-- **Validation by plans is validation by the schema.**  A schema whose
references resolve and whose types have distinct field names has a plan for each
of its types, and with these plans a payload has no failure exactly when the type
accepts it. -/
theorem Schema.evaluate_iff_accepts (schema : Schema)
    (hreferences : schema.checkReferences = .ok ())
    (hnames : ∀ type ∈ schema.types, (type.properties.map (·.name)).Nodup) :
    ∃ plans, schema.typePlans.outcome = .ok plans ∧
      ∀ type ∈ schema.types, ∃ plan, plans.lookup type.name = some plan ∧
        ∀ payload,
          ((plan.evaluate plans payload).1 = .ok none ↔ schema.Accepts type payload) ∧
            ∀ name, (plan.evaluate plans payload).1 ≠ .error (.noPlan name) := by
  obtain ⟨plans, hplans⟩ := (checkReferences_eq_ok_iff.1 hreferences).typePlans_isOk
  refine ⟨plans, hplans, ?_⟩
  intro type htype
  obtain ⟨rules, hplan, -⟩ := lookup_typePlans hplans htype
  refine ⟨_, hplan, fun payload => ⟨?_, ?_⟩⟩
  · exact Evaluation.evaluate_eq_none_iff hplans hnames htype hplan payload
  · exact Evaluation.evaluate_ne_noPlan hplans hnames htype hplan payload

theorem Schema.trees_evaluate_iff_accepts :
    trees.checkReferences = .ok () ∧
      ∃ plans, trees.typePlans.outcome = .ok plans ∧
        ∀ type ∈ trees.types, ∃ plan, plans.lookup type.name = some plan ∧
          ∀ payload,
            ((plan.evaluate plans payload).1 = .ok none ↔ trees.Accepts type payload) ∧
              ∀ name, (plan.evaluate plans payload).1 ≠ .error (.noPlan name) :=
  ⟨by rfl, trees.evaluate_iff_accepts (by rfl) (by decide)⟩

end RpcBindings
