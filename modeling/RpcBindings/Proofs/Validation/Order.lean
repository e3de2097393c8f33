import RpcBindings.Proofs.Validation.Frame
import RpcBindings.Proofs.Value.Alike

/-!
# RpcBindings.Proofs.Validation.Order

The order of fields.  It decides which failure is reported, and whether an
evaluation ends in a message or in an error, but not whether a payload is in
order: a schema whose types list their fields in another order accepts the same
payloads.  And what it leaves of a payload that is in order is the same mapping:
every field is reached then, and fields write under names of their own.
-/

namespace RpcBindings

/-! ## The same schema in another order -/

/-- The same type with its fields in another order. -/
structure ObjectType.Reordered (type type' : ObjectType) : Prop where
  name : type'.name = type.name
  properties : type.properties.Perm type'.properties

theorem ObjectType.Reordered.symm {type type' : ObjectType} (h : type.Reordered type') :
    type'.Reordered type :=
  ⟨h.name.symm, h.properties.symm⟩

/-- The same types with their fields in another order, in two schemas. -/
def Schema.Reordered (schema schema' : Schema) : Prop :=
  List.Forall₂ ObjectType.Reordered schema.types schema'.types

namespace Schema

variable {schema schema' : Schema} {owner : String} {field : Field} {fields fields' : List Field}
  {steps : List Step} {rules : List FieldRules} {type : ObjectType}

theorem Reordered.symm (h : schema.Reordered schema') : schema'.Reordered schema :=
  h.flip.imp fun _ _ htype => htype.symm

/-- Fields that have distinct names have them in any order. -/
theorem Reordered.nodup_names (h : schema.Reordered schema')
    (hnames : ∀ type ∈ schema.types, (type.properties.map (·.name)).Nodup) :
    ∀ type' ∈ schema'.types, (type'.properties.map (·.name)).Nodup := by
  intro type' htype'
  obtain ⟨type, htype, hreordered⟩ := exists_left_of_forall₂ h htype'
  exact (hreordered.properties.map _).nodup_iff.1 (hnames type htype)

/-- A type that is declared is declared with its fields in the other order. -/
theorem Reordered.exists_findType? (h : schema.Reordered schema') {name : String}
    (hfind : schema.findType? name = some type) :
    ∃ type', schema'.findType? name = some type' ∧ type.Reordered type' := by
  unfold Reordered at h
  unfold findType? at hfind ⊢
  generalize schema.types = types at hfind h
  generalize schema'.types = types' at h ⊢
  induction h with
  | nil => simp at hfind
  | cons hfirst hrest ih =>
      rw [List.find?_cons] at hfind ⊢
      rw [hfirst.name]
      split at hfind
      · exact ⟨_, rfl, Option.some.inj hfind ▸ hfirst⟩
      · exact ih hfind

/-- The element type of a field is found in both schemas, with its properties reordered. -/
theorem Reordered.exists_elementType? (h : schema.Reordered schema')
    (helement : schema.elementType? field = some type) :
    ∃ type', schema'.elementType? field = some type' ∧ type.Reordered type' := by
  obtain ⟨target, htarget, hfind⟩ := Option.bind_eq_some_iff.1 helement
  obtain ⟨type', hfind', htype⟩ := h.exists_findType? hfind
  exact ⟨type', Option.bind_eq_some_iff.2 ⟨target, htarget, hfind'⟩, htype⟩

/-- The steps of a field do not depend on the order of the fields of its elements. -/
theorem Reordered.fieldSteps (h : schema.Reordered schema')
    (hsteps : schema.fieldSteps owner field = .ok steps) :
    schema'.fieldSteps owner field = .ok steps := by
  obtain ⟨elements, helements, rfl⟩ := fieldSteps_eq_ok_iff.1 hsteps
  refine fieldSteps_eq_ok_iff.2 ⟨elements, ?_, rfl⟩
  obtain hnone | ⟨type, helement, rfl⟩ := elementStep_eq_ok_iff.1 helements
  · exact elementStep_eq_ok_iff.2 (.inl hnone)
  · obtain ⟨type', helement', htype⟩ := h.exists_elementType? helement
    exact elementStep_eq_ok_iff.2 (.inr ⟨type', helement', by rw [htype.name]⟩)

/-- The same is true of the rules of some fields. -/
theorem Reordered.rulesOf (h : schema.Reordered schema')
    (hrules : (schema.rulesOf owner fields).outcome = .ok rules) :
    (schema'.rulesOf owner fields).outcome = .ok rules := by
  induction fields generalizing rules with
  | nil => exact hrules
  | cons field fields ih =>
      obtain ⟨steps, hsteps, more, hmore, rfl⟩ := rulesOf_cons_eq_ok_iff.1 hrules
      exact rulesOf_cons_eq_ok_iff.2 ⟨steps, h.fieldSteps hsteps, more, ih hmore, rfl⟩

/-- Fields in another order have their rules in another order. -/
theorem exists_rulesOf_of_perm (hperm : fields.Perm fields')
    (hrules : (schema.rulesOf owner fields).outcome = .ok rules) :
    ∃ rules', (schema.rulesOf owner fields').outcome = .ok rules' ∧ rules.Perm rules' := by
  induction hperm generalizing rules with
  | nil => exact ⟨rules, hrules, .refl _⟩
  | cons first hperm ih =>
      obtain ⟨steps, hsteps, more, hmore, rfl⟩ := rulesOf_cons_eq_ok_iff.1 hrules
      obtain ⟨more', hmore', hrest⟩ := ih hmore
      refine ⟨_, rulesOf_cons_eq_ok_iff.2 ⟨steps, hsteps, more', hmore', rfl⟩, ?_⟩
      split
      · exact hrest
      · exact hrest.cons _
  | swap first second rest =>
      obtain ⟨steps, hsteps, _, hmore, rfl⟩ := rulesOf_cons_eq_ok_iff.1 hrules
      obtain ⟨steps', hsteps', more, hmore', rfl⟩ := rulesOf_cons_eq_ok_iff.1 hmore
      have hsecond := rulesOf_cons_eq_ok_iff.2 ⟨steps, hsteps, more, hmore', rfl⟩
      refine ⟨_, rulesOf_cons_eq_ok_iff.2 ⟨steps', hsteps', _, hsecond, rfl⟩, ?_⟩
      cases steps with
      | nil => exact .refl _
      | cons step steps =>
          cases steps' with
          | nil => exact .refl _
          | cons step' steps' => exact .swap _ _ _
  | trans hfirst hsecond ih ih' =>
      obtain ⟨between, hbetween, hperm⟩ := ih hrules
      obtain ⟨rules', hrules', hperm'⟩ := ih' hbetween
      exact ⟨rules', hrules', hperm.trans hperm'⟩

/-- The rules of a type are those of the type with its fields in the other order. -/
theorem Reordered.exists_rulesOf (h : schema.Reordered schema') {type' : ObjectType}
    (htype : type.Reordered type')
    (hrules : (schema.rulesOf type.name type.properties).outcome = .ok rules) :
    ∃ rules', (schema'.rulesOf type'.name type'.properties).outcome = .ok rules' ∧
      rules.Perm rules' := by
  rw [htype.name]
  exact exists_rulesOf_of_perm htype.properties (h.rulesOf hrules)

/-- A schema has the plans of its types in any order of their fields. -/
theorem Reordered.typePlans_isOk (h : schema.Reordered schema') (hresolves : schema.Resolves) :
    ∃ plans, schema'.typePlans.outcome = .ok plans := by
  apply plansOf_isOk
  intro type' htype'
  obtain ⟨type, hmem, htype⟩ := exists_left_of_forall₂ h htype'
  obtain ⟨rules, hrules⟩ :=
    hresolves.rulesOf_isOk_of_mem type.name (properties_mem_fieldLists hmem)
  obtain ⟨rules', hrules', -⟩ := h.exists_rulesOf htype hrules
  exact ⟨rules', hrules'⟩

/-! ## The same payloads are in order -/

/-- What a type accepts does not depend on the order of its fields. -/
theorem Reordered.accepts (h : schema.Reordered schema') {type' : ObjectType}
    (htype : type.Reordered type') {payload : Entries} (haccepts : schema.Accepts type payload) :
    schema'.Accepts type' payload := by
  induction payload using Entries.items_induction generalizing type type' with
  | holds payload ih =>
      rw [Accepts] at haccepts ⊢
      intro field hfield
      obtain ⟨hrequired, hallows, helements⟩ := haccepts field (htype.properties.mem_iff.2 hfield)
      refine ⟨hrequired, hallows, ?_⟩
      intro element' helement'
      obtain ⟨element, helement, hreordered⟩ := h.symm.exists_elementType? helement'
      obtain hfalsy | ⟨items, hitems, hall⟩ := helements element helement
      · exact .inl hfalsy
      · refine .inr ⟨items, hitems, ?_⟩
        intro item hitem
        obtain ⟨entries, rfl, hentries⟩ := hall item hitem
        exact ⟨entries, rfl, ih _ _ entries (Field.items?_of_effective hitems) hitem
          hreordered.symm hentries⟩

end Schema

/-! ## What is left is the same mapping -/

/-- A value with other items is alike if the items are. -/
theorem Value.alike_withItems {items items' : List Value} (value : Value)
    (h : AlikeItems items items') : Alike (value.withItems items) (value.withItems items') := by
  cases value with
  | list own => exact .list h
  | pair first second =>
      cases h with
      | nil => exact .refl _
      | cons hfirst hrest =>
          cases hrest with
          | nil => exact .refl _
          | cons hsecond hrest =>
              cases hrest with
              | nil => exact .pair hfirst hsecond
              | cons _ _ => exact .refl _
  | _ => exact .refl _

namespace Evaluation

variable {schema schema' : Schema} {plans plans' : Plans} {owner : String} {field : Field}
  {steps : List Step} {value : Value}

/-- Items that are in order are alike after two evaluations that leave each of them alike. -/
theorem alikeItems_runElements {child child' : Evaluation} {items : List Value}
    (hbelow : ∀ entries, .map entries ∈ items → (child entries).1 = .ok none →
      (child' entries).1 = .ok none ∧
        Value.Alike (.map (child entries).2) (.map (child' entries).2))
    {field : String} {index : Nat} (hnone : (runElements child field index items).1 = .ok none) :
    Value.AlikeItems (runElements child field index items).2
      (runElements child' field index items).2 := by
  induction items generalizing index with
  | nil => exact .nil
  | cons item rest ih =>
      rw [runElements_eq_none_iff, List.forall_mem_cons] at hnone
      obtain ⟨⟨entries, rfl, hentries⟩, hrest⟩ := hnone
      obtain ⟨hentries', halike⟩ := hbelow entries List.mem_cons_self hentries
      have hmore := ih (fun entries hmem => hbelow entries (List.mem_cons_of_mem _ hmem))
        ((runElements_eq_none_iff child field (index + 1) rest).2 hrest)
      obtain ⟨left, hrun⟩ : ∃ left, child entries = (.ok none, left) := ⟨_, Prod.ext hentries rfl⟩
      obtain ⟨left', hrun'⟩ : ∃ left', child' entries = (.ok none, left') :=
        ⟨_, Prod.ext hentries' rfl⟩
      rw [hrun, hrun'] at halike
      simp only [runElements, hrun, hrun']
      exact .cons halike hmore

/-- The steps of a field leave alike what is in order, if plans of the same
declared type do. -/
theorem alike_runSteps (hsteps : schema.fieldSteps owner field = .ok steps)
    (hbelow : ∀ element, schema.elementType? field = some element →
      ∃ child child', plans.lookup element.name = some child ∧
        plans'.lookup element.name = some child' ∧
        ∀ items, value.items? = some items → ∀ entries, .map entries ∈ items →
          (child.evaluate plans entries).1 = .ok none →
          (child'.evaluate plans' entries).1 = .ok none ∧
            Value.Alike (.map (child.evaluate plans entries).2)
              (.map (child'.evaluate plans' entries).2))
    (hnone : (runSteps plans (fun plan => plan.evaluate plans) field steps value).1 = .ok none) :
    Value.Alike (runSteps plans (fun plan => plan.evaluate plans) field steps value).2
      (runSteps plans' (fun plan => plan.evaluate plans') field steps value).2 := by
  rw [runSteps_fieldSteps _ _ hsteps] at hnone ⊢
  rw [runSteps_fieldSteps _ _ hsteps]
  cases hfailure : field.failure? (field.effective value) with
  | some message => exact .refl _
  | none =>
      cases helement : schema.elementType? field with
      | none => exact .refl _
      | some element =>
          obtain ⟨child, child', hchild, hchild', hitems⟩ := hbelow element helement
          have harray := Schema.kind_of_elementType? helement
          simp only [hfailure, helement] at hnone
          simp only [runStep, hchild, hchild', Field.effective_of_array harray] at hnone ⊢
          simp only [runItems_snd]
          cases hvalue : value.items? with
          | none => exact .refl _
          | some items =>
              have hall : ∀ item ∈ items, ∃ entries, item = .map entries ∧
                  (child.evaluate plans entries).1 = .ok none := by
                obtain hfalsy | ⟨found, hfound, hall⟩ := (runItems_eq_none_iff _ _ _).1 hnone
                · have hempty : items = [] := by
                    cases value <;> simp_all [Value.isTruthy, Value.items?]
                  simp [hempty]
                · obtain rfl := Option.some.inj (hvalue.symm.trans hfound)
                  exact hall
              apply Value.alike_withItems
              exact alikeItems_runElements (hitems items hvalue)
                ((runElements_eq_none_iff _ _ _ _).2 hall)

/-- All fields of a payload that is in order are reached. -/
theorem runFields_snd_of_none (evaluate : Plan → Evaluation) {rules : List FieldRules}
    (hnames : (rules.map (·.field.name)).Nodup) {payload : Entries}
    (hnone : (runFields plans evaluate rules payload).1 = .ok none) :
    (runFields plans evaluate rules payload).2 =
      Entries.writeAll payload (rules.map fun r => (r.field.name,
        (runSteps plans evaluate r.field r.steps (Entries.get payload r.field.name)).2)) := by
  rw [runFields_fst _ _ hnames, firstFailure_eq_none_iff, List.forall_mem_map] at hnone
  obtain ⟨reached, hreached, hleft⟩ := exists_runFields_snd evaluate hnames payload
  rw [hleft, hreached.eq_of_forall hnone]

/-- A payload that is in order is left alike by the plans of a type in both orders. -/
theorem alike_evaluate (h : schema.Reordered schema')
    (hplans : schema.typePlans.outcome = .ok plans)
    (hplans' : schema'.typePlans.outcome = .ok plans')
    (hnames : ∀ type ∈ schema.types, (type.properties.map (·.name)).Nodup)
    {type type' : ObjectType} (htype : type ∈ schema.types) (htype' : type' ∈ schema'.types)
    (hreordered : type.Reordered type') {plan plan' : Plan}
    (hplan : plans.lookup type.name = some plan) (hplan' : plans'.lookup type'.name = some plan')
    (payload : Entries) (hnone : (plan.evaluate plans payload).1 = .ok none) :
    (plan'.evaluate plans' payload).1 = .ok none ∧
      Value.Alike (.map (plan.evaluate plans payload).2)
        (.map (plan'.evaluate plans' payload).2) := by
  have hnames' := h.nodup_names hnames
  induction payload using Entries.items_induction generalizing type type' plan plan' with
  | holds payload ih =>
      have hnone' : (plan'.evaluate plans' payload).1 = .ok none := by
        rw [evaluate_eq_none_iff hplans hnames htype hplan] at hnone
        rw [evaluate_eq_none_iff hplans' hnames' htype' hplan']
        exact h.accepts hreordered hnone
      refine ⟨hnone', ?_⟩
      obtain ⟨rules, hlookup, hrules⟩ := Schema.lookup_typePlans hplans htype
      obtain rfl : plan = ⟨type.name, rules⟩ := Option.some.inj (hplan.symm.trans hlookup)
      obtain ⟨rules', hlookup', hrules'⟩ := Schema.lookup_typePlans hplans' htype'
      obtain rfl : plan' = ⟨type'.name, rules'⟩ := Option.some.inj (hplan'.symm.trans hlookup')
      obtain ⟨rules'', hrules'', hperm⟩ := h.exists_rulesOf hreordered hrules
      obtain rfl : rules' = rules'' := Except.ok.inj (hrules'.symm.trans hrules'')
      have hnodup := nodup_rulesOf hrules (hnames type htype)
      have hnodup' := nodup_rulesOf hrules' (hnames' type' htype')
      rw [evaluate_eq_runFields] at hnone hnone'
      rw [evaluate_eq_runFields, evaluate_eq_runFields,
        runFields_snd_of_none _ hnodup hnone, runFields_snd_of_none _ hnodup' hnone']
      rw [runFields_fst _ _ hnodup, firstFailure_eq_none_iff, List.forall_mem_map] at hnone
      apply Value.alike_writeAll hnodup hperm
      intro r hr
      apply alike_runSteps (Schema.fieldSteps_of_mem_rulesOf hrules hr) _ (hnone r hr)
      intro element helement
      obtain ⟨element', helement', hbelow⟩ := h.exists_elementType? helement
      obtain ⟨hmem, child, hchild, -⟩ :=
        runStep_elements hplans (fun plan => plan.evaluate plans) helement .null
      obtain ⟨hmem', child', hchild', -⟩ :=
        runStep_elements hplans' (fun plan => plan.evaluate plans') helement' .null
      refine ⟨child, child', hchild, hbelow.name ▸ hchild', ?_⟩
      intro items hitems entries hentries hnone
      exact ih _ _ entries hitems hentries hmem hmem' hbelow hchild hchild' hnone

end Evaluation

/-- **The order of fields does not decide what is in order.**  If the references of
a schema resolve and its types have distinct field names, then whatever order the
fields of its types are put in, there are plans of its types, by which the same
payloads are in order, and what is left of these is the same mapping. -/
theorem Schema.evaluate_reordered (schema schema' : Schema)
    (hreferences : schema.checkReferences = .ok ())
    (hnames : ∀ type ∈ schema.types, (type.properties.map (·.name)).Nodup)
    (h : schema.Reordered schema') :
    ∃ plans plans', schema.typePlans.outcome = .ok plans ∧
      schema'.typePlans.outcome = .ok plans' ∧
      ∀ type ∈ schema.types, ∃ plan plan', plans.lookup type.name = some plan ∧
        plans'.lookup type.name = some plan' ∧
        ∀ payload,
          ((plan.evaluate plans payload).1 = .ok none ↔
            (plan'.evaluate plans' payload).1 = .ok none) ∧
          ((plan.evaluate plans payload).1 = .ok none →
            Value.Alike (.map (plan.evaluate plans payload).2)
              (.map (plan'.evaluate plans' payload).2)) := by
  have hresolves := checkReferences_eq_ok_iff.1 hreferences
  obtain ⟨plans, hplans⟩ := hresolves.typePlans_isOk
  obtain ⟨plans', hplans'⟩ := h.typePlans_isOk hresolves
  refine ⟨plans, plans', hplans, hplans', ?_⟩
  intro type htype
  obtain ⟨type', htype', hreordered⟩ := exists_right_of_forall₂ h htype
  obtain ⟨rules, hplan, -⟩ := lookup_typePlans hplans htype
  obtain ⟨rules', hplan', -⟩ := lookup_typePlans hplans' htype'
  refine ⟨_, _, hplan, hreordered.name ▸ hplan', ?_⟩
  intro payload
  have hforth := Evaluation.alike_evaluate h hplans hplans' hnames htype htype' hreordered
    hplan hplan' payload
  have hback := Evaluation.alike_evaluate h.symm hplans' hplans (h.nodup_names hnames) htype' htype
    hreordered.symm hplan' hplan payload
  exact ⟨⟨fun hnone => (hforth hnone).1, fun hnone => (hback hnone).1⟩,
    fun hnone => (hforth hnone).2⟩

/-- The schema with the fields of its types in reverse. -/
def Schema.reversed (schema : Schema) : Schema :=
  { schema with
    types := schema.types.map fun type => { type with properties := type.properties.reverse }
    typeNames_nodup := by simpa [List.map_map, Function.comp_def] using schema.typeNames_nodup }

/-- Reversing the properties of every type reorders a schema. -/
theorem Schema.reordered_reversed (schema : Schema) : schema.Reordered schema.reversed := by
  rw [Reordered, reversed, List.forall₂_map_right_iff, List.forall₂_same]
  exact fun type _ => ⟨rfl, (List.reverse_perm _).symm⟩

theorem Schema.trees_evaluate_reordered :
    trees.checkReferences = .ok () ∧ trees.Reordered trees.reversed ∧
      ∃ plans plans', trees.typePlans.outcome = .ok plans ∧
        trees.reversed.typePlans.outcome = .ok plans' ∧
        ∀ type ∈ trees.types, ∃ plan plan', plans.lookup type.name = some plan ∧
          plans'.lookup type.name = some plan' ∧
          ∀ payload,
            ((plan.evaluate plans payload).1 = .ok none ↔
              (plan'.evaluate plans' payload).1 = .ok none) ∧
            ((plan.evaluate plans payload).1 = .ok none →
              Value.Alike (.map (plan.evaluate plans payload).2)
                (.map (plan'.evaluate plans' payload).2)) :=
  ⟨by rfl, trees.reordered_reversed,
    trees.evaluate_reordered trees.reversed (by rfl) (by decide) trees.reordered_reversed⟩

end RpcBindings
