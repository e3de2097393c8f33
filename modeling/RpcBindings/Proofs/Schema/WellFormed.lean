import RpcBindings.Proofs.Outcome
import RpcBindings.Proofs.Text.Trimmed
import RpcBindings.Schema.Reader
import RpcBindings.Schema.References

/-!
# RpcBindings.Proofs.Schema.WellFormed

The form that a schema has when it was read from a document.  Names are trimmed
and not empty, descriptions are trimmed, and no name occurs twice among its
siblings; a descriptor is a primitive kind, a reference or an array of these.
Whatever the document holds, a schema that is read from it has this form.
-/

namespace RpcBindings

/-! ## The form of a schema -/

namespace Descriptor

/-- The shapes of descriptors that documents can state. -/
inductive HasShape : Descriptor → Prop where
  | primitive {kind : Kind} (h : kind.isPrimitive = true) : HasShape (.primitive kind)
  | reference (target : String) : HasShape (.reference target)
  | array {items : Descriptor} (h : HasShape items) : HasShape (.array items)

/-- A descriptor of such a shape, whose target, if it has one, does not end with a
blank character. -/
structure WellFormed (d : Descriptor) : Prop where
  shape : d.HasShape
  targets : ∀ target ∈ d.targets, Text.EndsSolid target.toList

theorem wellFormed_primitive {kind : Kind} (h : kind.isPrimitive = true) :
    (primitive kind).WellFormed :=
  ⟨.primitive h, by simp [primitive]⟩

/-- A reference is well-formed where its target survives reading. -/
theorem wellFormed_reference {target : String} (h : Text.EndsSolid target.toList) :
    (reference target).WellFormed :=
  ⟨.reference target, by simpa [reference] using h⟩

theorem wellFormed_array {items : Descriptor} (h : items.WellFormed) : (array items).WellFormed :=
  ⟨.array h.shape, by simpa [array] using h.targets⟩

end Descriptor

/-- The form of a field; its default may be any datum. -/
structure Field.WellFormed (field : Field) : Prop where
  name : Text.IsName field.name
  description : Text.IsTrimmed field.description
  type : field.type.WellFormed

/-- The form of a list of fields. -/
structure WellFormedFields (fields : List Field) : Prop where
  nodup : (fields.map (·.name)).Nodup
  fields : ∀ field ∈ fields, field.WellFormed

/-- The form of a declared type. -/
structure ObjectType.WellFormed (type : ObjectType) : Prop where
  name : Text.IsName type.name
  description : Text.IsTrimmed type.description
  properties : WellFormedFields type.properties

/-- The form of a method. -/
structure Method.WellFormed (method : Method) : Prop where
  name : Text.IsName method.name
  description : Text.IsTrimmed method.description
  inputs : WellFormedFields method.inputs
  outputs : WellFormedFields method.outputs

namespace Schema

/-- The form of a schema. -/
structure WellFormed (schema : Schema) : Prop where
  name : Text.IsTrimmed schema.name
  description : Text.IsTrimmed schema.description
  typeNames : (schema.types.map (·.name)).Nodup
  types : ∀ type ∈ schema.types, type.WellFormed
  methodNames : (schema.methods.map (·.name)).Nodup
  methods : ∀ method ∈ schema.methods, method.WellFormed
  goTags : ∀ tag ∈ schema.goTags, Text.IsName tag

/-- What holds of all fields holds of those of each type and of each method. -/
theorem forall_ownedFields_iff {schema : Schema} {P : Field → Prop} :
    (∀ entry ∈ schema.ownedFields, P entry.2) ↔
      (∀ type ∈ schema.types, ∀ field ∈ type.properties, P field) ∧
        ∀ method ∈ schema.methods,
          (∀ field ∈ method.inputs, P field) ∧ ∀ field ∈ method.outputs, P field := by
  simp only [ownedFields, List.forall_mem_append, List.forall_mem_flatMap, List.forall_mem_map]

/-- The fields of all lists are the fields that have a place. -/
theorem forall_fieldLists_iff {schema : Schema} {P : Field → Prop} :
    (∀ fields ∈ schema.fieldLists, ∀ field ∈ fields, P field) ↔
      ∀ entry ∈ schema.ownedFields, P entry.2 := by
  rw [forall_ownedFields_iff]
  simp only [fieldLists, List.forall_mem_append, List.forall_mem_map, List.forall_mem_flatMap,
    List.forall_mem_cons, List.not_mem_nil, false_implies, implies_true, and_true]

variable {schema : Schema}

/-- Every list of fields of a well-formed schema is well-formed. -/
theorem WellFormed.fieldLists (h : schema.WellFormed) :
    ∀ fields ∈ schema.fieldLists, WellFormedFields fields := by
  simp only [Schema.fieldLists, List.forall_mem_append, List.forall_mem_map,
    List.forall_mem_flatMap, List.forall_mem_cons, List.not_mem_nil, false_implies, implies_true,
    and_true]
  exact ⟨fun type htype => (h.types type htype).properties,
    fun method hmethod => ⟨(h.methods method hmethod).inputs, (h.methods method hmethod).outputs⟩⟩

/-- The types of fields are nested as descriptors are. -/
theorem WellFormed.hasShape (h : schema.WellFormed) :
    ∀ fields ∈ schema.fieldLists, ∀ field ∈ fields, field.type.HasShape :=
  fun fields hfields field hfield => ((h.fieldLists fields hfields).fields field hfield).type.shape

/-! ## Texts and descriptors that are read -/

variable {place owner what name s : String} {v key : Value} {body : Entries} {d : Descriptor}

/-- A text that the reader accepts is trimmed. -/
theorem isTrimmed_of_textAt (h : textAt place v = .ok s) : Text.IsTrimmed s := by
  cases v with
  | null => exact Except.ok.inj h ▸ Text.isTrimmed_empty
  | text read => exact Except.ok.inj h ▸ Text.isTrimmed_trim read
  | _ => contradiction

/-- A name that the reader accepts is one. -/
theorem isName_of_nameAt (h : nameAt place v = .ok s) : Text.IsName s := by
  cases v with
  | text read =>
      simp only [nameAt] at h
      split at h
      · contradiction
      · next hne => exact Except.ok.inj h ▸ Text.isName_trim (by simpa using hne)
  | _ => contradiction

theorem isName_of_nameIn (h : nameIn what v = .ok s) : Text.IsName s := by
  cases v with
  | map entries => exact isName_of_nameAt h
  | _ => contradiction

theorem isName_of_tagOf (h : tagOf v = .ok s) : Text.IsName s := by
  cases v with
  | text read =>
      simp only [tagOf] at h
      split at h
      · contradiction
      · next hne => exact Except.ok.inj h ▸ Text.isName_trim (by simpa using hne)
  | _ => contradiction

/-- The prefix of a reference is dropped at its start, so the end stays solid. -/
theorem endsSolid_targetOf (reference : String) :
    Text.EndsSolid (targetOf reference).toList := by
  have htrimmed : Text.EndsSolid (Text.trimChars reference.toList) :=
    Text.endsSolid_trimEndChars _
  rw [targetOf, String.toList_ofList]
  split
  · intro c hc
    rw [List.getLast?_drop] at hc
    split at hc
    · simp at hc
    · exact htrimmed c hc
  · exact htrimmed

/-- A kind that a document can name is no reference. -/
theorem isPrimitive_of_ofName? {kind : Kind} (h : Kind.ofName? name = some kind)
    (hne : kind ≠ .array) : kind.isPrimitive = true := by
  have hnot : kind ≠ .reference := by
    have hfound := List.find?_some h
    simp only [Bool.and_eq_true, bne_iff_ne] at hfound
    exact hfound.1
  cases kind <;> simp_all [Kind.isPrimitive]

/-- Every descriptor that the reader gives is well-formed. -/
theorem wellFormed_of_descriptorOf (h : descriptorOf place body = .ok d) : d.WellFormed := by
  fun_induction descriptorOf place body generalizing d with
  | case2 place body name _ _ _ items _ ih =>
      obtain ⟨inner, hinner, rfl⟩ := map_eq_ok_iff.1 h
      exact Descriptor.wellFormed_array (ih hinner)
  | case4 place body name _ _ kind hne hkind =>
      obtain rfl := Except.ok.inj h
      exact Descriptor.wellFormed_primitive (isPrimitive_of_ofName? hkind hne)
  | case7 place body reference _ _ _ =>
      obtain rfl := Except.ok.inj h
      exact Descriptor.wellFormed_reference (endsSolid_targetOf reference)
  | _ => contradiction

/-! ## Fields that are read -/

variable {field : Field} {fields : List Field} {seen : List String} {pairs : List (Value × Value)}

/-- A field that is read keeps the name it was read under. -/
theorem name_of_fieldOf (h : fieldOf owner name v = .ok field) : field.name = name := by
  cases v with
  | map body =>
      simp only [fieldOf, bind_eq_ok_iff, pure_eq_ok, Except.ok.injEq] at h
      obtain ⟨required, -, description, -, type, -, enum, -, rfl⟩ := h
      rfl
  | _ => contradiction

/-- Every field that the reader gives under a name is well-formed. -/
theorem wellFormed_of_fieldOf (hname : Text.IsName name) (h : fieldOf owner name v = .ok field) :
    field.WellFormed := by
  cases v with
  | map body =>
      simp only [fieldOf, bind_eq_ok_iff, pure_eq_ok, Except.ok.injEq] at h
      obtain ⟨required, -, description, hdescription, type, htype, enum, -, rfl⟩ := h
      exact ⟨hname, isTrimmed_of_textAt hdescription, wellFormed_of_descriptorOf htype⟩
  | _ => contradiction

/-- Names of fields differ from those seen before them. -/
theorem wellFormed_of_fieldsOfPairs (h : fieldsOfPairs owner seen pairs = .ok fields) :
    WellFormedFields fields ∧ ∀ field ∈ fields, field.name ∉ seen := by
  induction pairs generalizing seen fields with
  | nil =>
      obtain rfl := Except.ok.inj h
      exact ⟨⟨List.nodup_nil, by simp⟩, by simp⟩
  | cons pair rest ih =>
      obtain ⟨key, body⟩ := pair
      rw [fieldsOfPairs, bind_eq_ok_iff] at h
      obtain ⟨name, hname, h⟩ := h
      split at h
      · contradiction
      · next hseen =>
        simp only [bind_eq_ok_iff, pure_eq_ok, Except.ok.injEq] at h
        obtain ⟨field, hfield, more, hmore, rfl⟩ := h
        obtain ⟨hwell, hout⟩ := ih hmore
        have hfresh : field.name ∉ seen := by
          rw [name_of_fieldOf hfield]
          simpa using hseen
        refine ⟨⟨?_, ?_⟩, ?_⟩
        · rw [List.map_cons, List.nodup_cons]
          refine ⟨fun hmem => ?_, hwell.nodup⟩
          obtain ⟨other, hother, heq⟩ := List.mem_map.1 hmem
          exact hout other hother (by simp [heq, name_of_fieldOf hfield])
        · exact List.forall_mem_cons.2
            ⟨wellFormed_of_fieldOf (isName_of_nameAt hname) hfield, hwell.fields⟩
        · refine List.forall_mem_cons.2 ⟨hfresh, fun other hother hmem => ?_⟩
          exact hout other hother (List.mem_cons_of_mem _ hmem)

theorem wellFormed_of_fieldsOf (h : fieldsOf owner v = .ok fields) : WellFormedFields fields := by
  unfold fieldsOf at h
  split at h
  · obtain rfl := Except.ok.inj h
    exact ⟨List.nodup_nil, by simp⟩
  · exact (wellFormed_of_fieldsOfPairs h).1
  · split at h
    · simp only [bind_eq_ok_iff] at h
      obtain ⟨pairs, -, hfields⟩ := h
      exact (wellFormed_of_fieldsOfPairs hfields).1
    · contradiction

/-! ## Types and methods that are read -/

/-- Every type that the reader gives is well-formed. -/
theorem wellFormed_of_typeOf {type : ObjectType} (h : typeOf key v = .ok type) :
    type.WellFormed := by
  obtain ⟨name, hname, h⟩ := bind_eq_ok_iff.1 h
  cases v with
  | null | map =>
      simp only [bind_eq_ok_iff, pure_eq_ok, Except.ok.injEq] at h
      obtain ⟨entries, -, description, hdescription, properties, hproperties, rfl⟩ := h
      exact ⟨isName_of_nameAt hname, isTrimmed_of_textAt hdescription,
        wellFormed_of_fieldsOf hproperties⟩
  | _ => contradiction

theorem wellFormed_of_typesOf {types : List ObjectType} (h : typesOf v = .ok types) :
    ∀ type ∈ types, type.WellFormed := by
  intro type htype
  unfold typesOf at h
  split at h
  · obtain ⟨⟨key, body⟩, -, hof⟩ := exists_of_mem_mapM h htype
    exact wellFormed_of_typeOf hof
  · simp only [bind_eq_ok_iff] at h
    obtain ⟨items, -, h⟩ := h
    obtain ⟨item, -, hof⟩ := exists_of_mem_mapM h htype
    obtain ⟨name, -, hof⟩ := bind_eq_ok_iff.1 hof
    exact wellFormed_of_typeOf hof

theorem wellFormed_of_methodOf {method : Method} (h : methodOf v = .ok method) :
    method.WellFormed := by
  simp only [methodOf, bind_eq_ok_iff, pure_eq_ok, Except.ok.injEq] at h
  obtain ⟨name, hname, description, hdescription, inputs, hinputs, outputs, houtputs, rfl⟩ := h
  exact ⟨isName_of_nameIn hname, isTrimmed_of_textAt hdescription,
    wellFormed_of_fieldsOf hinputs, wellFormed_of_fieldsOf houtputs⟩

theorem wellFormed_of_methodsOf {methods : List Method} (h : methodsOf v = .ok methods) :
    ∀ method ∈ methods, method.WellFormed := by
  intro method hmethod
  obtain ⟨items, -, h⟩ := bind_eq_ok_iff.1 h
  obtain ⟨item, -, hof⟩ := exists_of_mem_mapM h hmethod
  exact wellFormed_of_methodOf hof

/-- Every tag that the reader gives is a name. -/
theorem isName_of_goTagsOf {tags : List String} (h : goTagsOf v = .ok tags) :
    ∀ tag ∈ tags, Text.IsName tag := by
  have husual : ∀ tag ∈ usualTags, Text.IsName tag := by
    intro tag htag
    obtain rfl : tag = "json" := by simpa [usualTags] using htag
    exact Text.isName_trim (s := "json") (by decide)
  unfold goTagsOf at h
  split at h
  · exact Except.ok.inj h ▸ husual
  · split at h
    · exact Except.ok.inj h ▸ husual
    · split at h
      · intro tag htag
        obtain ⟨item, -, hof⟩ := exists_of_mem_mapM h htag
        exact isName_of_tagOf hof
      · contradiction
  · contradiction

/-! ## The schema that is read -/

/-- A schema consists of the parts that it was made from. -/
theorem parts_of_ofParts {schema : Schema} {description : String} {types : List ObjectType}
    {methods : List Method} {goTags : List String}
    (h : ofParts name description types methods goTags = .ok schema) :
    schema.name = name ∧ schema.description = description ∧ schema.types = types ∧
      schema.methods = methods ∧ schema.goTags = goTags := by
  unfold ofParts at h
  split at h
  · contradiction
  · split at h
    · contradiction
    · obtain rfl := Except.ok.inj h
      exact ⟨rfl, rfl, rfl, rfl, rfl⟩

/-- **What is read is well formed**, whatever the document holds. -/
theorem wellFormed_of_ofValue {schema : Schema} (h : ofValue v = .ok schema) :
    schema.WellFormed := by
  cases v with
  | map root =>
      simp only [ofValue, bind_eq_ok_iff] at h
      obtain ⟨types, htypes, methods, hmethods, name, hname, description, hdescription,
        goTags, hgoTags, h⟩ := h
      obtain ⟨rfl, rfl, rfl, rfl, rfl⟩ := parts_of_ofParts h
      exact {
        name := isTrimmed_of_textAt hname
        description := isTrimmed_of_textAt hdescription
        typeNames := schema.typeNames_nodup
        types := wellFormed_of_typesOf htypes
        methodNames := schema.methodNames_nodup
        methods := wellFormed_of_methodsOf hmethods
        goTags := isName_of_goTagsOf hgoTags }
  | _ => contradiction

end Schema

end RpcBindings
