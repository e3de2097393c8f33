import RpcBindings.Proofs.Schema.WellFormed
import RpcBindings.Proofs.Value.Keyed

/-!
# RpcBindings.Proofs.Schema.Document

Schemas written as documents.  A well-formed schema is written as a datum: types,
methods and fields as lists of definitions that hold their names, references with
their prefix.  Reading the datum gives the schema back, so the schemas that
documents describe are exactly the well-formed ones; defaults are data of the
document itself (`exists_ofValue_iff`).
-/

namespace RpcBindings

/-! ## Schemas as data -/

/-- A descriptor as a definition states it. -/
def Descriptor.entries : Descriptor → List (String × Value)
  | .plain _ (some target) =>
    [("$ref", .text (String.ofList (Schema.referencePrefix ++ target.toList)))]
  | .plain kind none => [("type", .text kind.name)]
  | .nested kind _ items =>
    [("type", .text kind.name), ("items", .map (Entries.ofTexts items.entries))]

/-- The definition of a field, its name included. -/
def Field.entries (field : Field) : List (String × Value) :=
  [("name", .text field.name), ("description", .text field.description),
   ("required", .bool field.required), ("default", field.default),
   ("enum", field.enum.elim .null Value.ofTexts)] ++ field.type.entries

def Field.toValue (field : Field) : Value :=
  .map (Entries.ofTexts field.entries)

def ObjectType.toValue (type : ObjectType) : Value :=
  .map (Entries.ofTexts
    [("name", .text type.name), ("description", .text type.description),
     ("properties", .list (type.properties.map Field.toValue))])

def Method.toValue (method : Method) : Value :=
  .map (Entries.ofTexts
    [("name", .text method.name), ("description", .text method.description),
     ("inputs", .list (method.inputs.map Field.toValue)),
     ("outputs", .list (method.outputs.map Field.toValue))])

/-- The document of a schema. -/
def Schema.toValue (schema : Schema) : Value :=
  .map (Entries.ofTexts
    [("name", .text schema.name), ("description", .text schema.description),
     ("types", .list (schema.types.map ObjectType.toValue)),
     ("methods", .list (schema.methods.map Method.toValue)),
     ("go", .map (Entries.ofTexts [("tags", .ofTexts schema.goTags)]))])

namespace Schema

variable {place owner what name : String} {d : Descriptor} {field : Field} {fields : List Field}

/-! ## Reading what was written -/

/-- A trimmed text is read as it stands. -/
theorem textAt_text (h : Text.IsTrimmed name) : textAt place (.text name) = .ok name := by
  rw [textAt, Text.trim_eq_self h]

/-- A name is not empty once it is trimmed. -/
theorem isEmpty_trim (h : Text.IsName name) : (Text.trim name).isEmpty = false := by
  rw [Text.trim_eq_self h.trimmed]
  simpa using h.nonempty

theorem nameAt_text (h : Text.IsName name) : nameAt place (.text name) = .ok name := by
  simp only [nameAt, isEmpty_trim h, Bool.false_eq_true, if_false]
  rw [Text.trim_eq_self h.trimmed]

theorem tagOf_text (h : Text.IsName name) : tagOf (.text name) = .ok name := by
  simp only [tagOf, isEmpty_trim h, Bool.false_eq_true, if_false]
  rw [Text.trim_eq_self h.trimmed]

theorem referencePrefix_eq :
    referencePrefix = ['#', '/', 't', 'y', 'p', 'e', 's', '/'] := by decide

/-- A reference with its prefix is trimmed: it begins with the prefix and ends with
the target, or with the prefix where the target is empty. -/
theorem isName_reference {target : String} (h : Text.EndsSolid target.toList) :
    Text.IsName (String.ofList (referencePrefix ++ target.toList)) := by
  rw [referencePrefix_eq]
  refine ⟨⟨?_, ?_⟩, ?_⟩
  · rw [String.toList_ofList]
    rintro c hc
    obtain rfl : '#' = c := Option.some.inj hc
    decide
  · rw [String.toList_ofList]
    intro c hc
    rw [List.getLast?_append] at hc
    cases hlast : target.toList.getLast? with
    | none =>
        rw [hlast, Option.none_or] at hc
        obtain rfl : '/' = c := Option.some.inj hc
        decide
    | some last =>
        rw [hlast, Option.some_or] at hc
        exact h c (hlast ▸ hc)
  · intro hempty
    have hlist := String.toList_eq_nil_iff.2 hempty
    rw [String.toList_ofList] at hlist
    exact List.cons_ne_nil _ _ hlist

/-- A written reference is read back as its target. -/
theorem targetOf_reference {target : String} (h : Text.EndsSolid target.toList) :
    targetOf (String.ofList (referencePrefix ++ target.toList)) = target := by
  have htrim := Text.trim_eq_self (isName_reference h).trimmed
  rw [Text.trim, String.toList_ofList] at htrim
  have hchars : Text.trimChars (referencePrefix ++ target.toList) =
      referencePrefix ++ target.toList := String.ofList_injective htrim
  rw [targetOf, String.toList_ofList, hchars, if_pos (by simp), List.drop_left,
    String.ofList_toList]

/-- The kinds that have a name are read back from it. -/
theorem ofName?_name {kind : Kind} (h : kind ≠ .reference) :
    Kind.ofName? kind.name = some kind := by
  cases kind <;> first | rfl | contradiction

/-- The name of a primitive kind is read as that kind. -/
theorem descriptorOf_primitive {kind : Kind} (hkind : kind.isPrimitive = true) {body : Entries}
    (href : Entries.get body "$ref" = .null) (htype : Entries.get body "type" = .text kind.name) :
    descriptorOf place body = .ok (.primitive kind) := by
  have hname : Kind.ofName? kind.name = some kind := ofName?_name (by rintro rfl; contradiction)
  rw [descriptorOf, href, htype]
  cases kind <;> first | contradiction | simp only [hname, Descriptor.primitive]

/-- A reference is read as its target, whatever else the body holds. -/
theorem descriptorOf_reference {reference : String} (hname : Text.IsName reference) {body : Entries}
    (href : Entries.get body "$ref" = .text reference) (htype : Entries.get body "type" = .null) :
    descriptorOf place body = .ok (.reference (targetOf reference)) := by
  rw [descriptorOf, href, htype]
  simp only [isEmpty_trim hname, Bool.false_eq_true, if_false]

/-- An array is read as an array of what its items are read as. -/
theorem descriptorOf_array {items : Descriptor} {body inner : Entries}
    (href : Entries.get body "$ref" = .null)
    (htype : Entries.get body "type" = .text Kind.array.name)
    (hitems : Entries.find? body "items" = some (.map inner))
    (hinner : descriptorOf (place ++ "[]") inner = .ok items) :
    descriptorOf place body = .ok (.array items) := by
  rw [descriptorOf, href, htype]
  simp only [ofName?_name (by decide : Kind.array ≠ .reference)]
  split
  · next found hfound =>
    obtain rfl := Value.map.inj (Option.some.inj (hitems.symm.trans hfound))
    rw [hinner]
    rfl
  · next hnone => exact absurd hitems (hnone _)

/-- A definition that says of its type what the entries of a descriptor say states
the descriptor. -/
theorem descriptorOf_entries (hd : d.WellFormed) {body : Entries}
    (hbody : ∀ key ∈ ["$ref", "type", "items"],
      Entries.find? body key = d.entries.lookup key) :
    descriptorOf place body = .ok d := by
  obtain ⟨hshape, htargets⟩ := hd
  have hget : ∀ key ∈ ["$ref", "type", "items"],
      Entries.get body key = (d.entries.lookup key).getD .null := by
    intro key hkey
    rw [Entries.get, hbody key hkey]
  have href := hget "$ref" (by simp)
  have htype := hget "type" (by simp)
  have hitems := hbody "items" (by simp)
  clear hbody hget
  induction hshape generalizing place body with
  | primitive hkind => exact descriptorOf_primitive hkind href htype
  | reference target =>
      have hsolid := htargets target (by simp [Descriptor.reference])
      rw [descriptorOf_reference (isName_reference hsolid) href htype, targetOf_reference hsolid]
  | @array items _ ih =>
      apply descriptorOf_array href htype hitems
      apply ih
      · simpa [Descriptor.array] using htargets
      · rw [Entries.get_ofTexts]
      · rw [Entries.get_ofTexts]
      · rw [Entries.find?_ofTexts]

/-! ## Fields that were written -/

/-- The keys that describe a type are not those that say the rest of a field. -/
theorem lookup_entries (field : Field) {key : String} (hkey : key ∈ ["$ref", "type", "items"]) :
    field.entries.lookup key = field.type.entries.lookup key := by
  rw [Field.entries, List.lookup_append]
  simp only [List.mem_cons, List.not_mem_nil, or_false] at hkey
  obtain rfl | rfl | rfl := hkey <;> rfl

/-- A written list of members is read back, and so is its absence. -/
theorem enumAt_ofTexts (enum : Option (List String)) :
    enumAt place (enum.elim .null Value.ofTexts) = .ok enum := by
  cases enum with
  | none => rfl
  | some texts =>
      simp only [Option.elim_some, Value.ofTexts, enumAt, Value.items?, Value.mapM_text?]

/-- A well-formed field is read back from what it is written as. -/
theorem fieldOf_toValue (h : field.WellFormed) :
    fieldOf owner field.name field.toValue = .ok field := by
  have hget (key : String) : Entries.get (Entries.ofTexts field.entries) key =
      (field.entries.lookup key).getD .null := Entries.get_ofTexts _ _
  have hrequired : Entries.find? (Entries.ofTexts field.entries) "required" =
      some (.bool field.required) := Entries.find?_ofTexts _ _
  have hdescription : Entries.get (Entries.ofTexts field.entries) "description" =
      .text field.description := hget _
  have henum : Entries.get (Entries.ofTexts field.entries) "enum" =
      field.enum.elim .null Value.ofTexts := hget _
  have hdefault : Entries.get (Entries.ofTexts field.entries) "default" = field.default := hget _
  have htype : descriptorOf s!"{owner}.{field.name}" (Entries.ofTexts field.entries) =
      .ok field.type := by
    apply descriptorOf_entries h.type
    intro key hkey
    rw [Entries.find?_ofTexts, lookup_entries field hkey]
  rw [Field.toValue, fieldOf]
  simp only [hrequired, hdescription, henum, hdefault, htype, requiredAt,
    textAt_text h.description, enumAt_ofTexts, ok_bind, pure_eq_ok]

/-- Fields under their names are read in order, where no name was seen before. -/
theorem fieldsOfPairs_toValue {seen : List String} (h : WellFormedFields fields)
    (hseen : ∀ field ∈ fields, field.name ∉ seen) :
    fieldsOfPairs owner seen (fields.map fun field => (.text field.name, field.toValue)) =
      .ok fields := by
  induction fields generalizing seen with
  | nil => rfl
  | cons field rest ih =>
      obtain ⟨hfield, hrest⟩ := List.forall_mem_cons.1 h.fields
      obtain ⟨hfresh, hothers⟩ := List.forall_mem_cons.1 hseen
      obtain ⟨hnot, hnodup⟩ := List.nodup_cons.1 h.nodup
      have hmore : fieldsOfPairs owner (field.name :: seen)
          (rest.map fun field => (.text field.name, field.toValue)) = .ok rest := by
        apply ih ⟨hnodup, hrest⟩
        intro other hother hmem
        obtain heq | hmem := List.mem_cons.1 hmem
        · exact hnot (List.mem_map.2 ⟨other, hother, heq⟩)
        · exact hothers other hother hmem
      have hcontains : seen.contains field.name = false := by simpa using hfresh
      rw [List.map_cons, fieldsOfPairs]
      simp only [nameAt_text hfield.name, ok_bind, hcontains, Bool.false_eq_true, if_false,
        pure_eq_ok, fieldOf_toValue hfield, hmore]

theorem nameIn_ofTexts {entries : List (String × Value)} (h : Text.IsName name)
    (hname : entries.lookup "name" = some (.text name)) :
    nameIn what (.map (Entries.ofTexts entries)) = .ok name := by
  rw [nameIn, Entries.get_ofTexts, hname]
  exact nameAt_text h

/-- Written fields are listed under their own names. -/
theorem namedBodies_toValue (h : WellFormedFields fields) :
    namedBodies what (fields.map Field.toValue) =
      .ok (fields.map fun field => (.text field.name, field.toValue)) := by
  rw [namedBodies, mapM_eq_ok_iff, List.forall₂_map_left_iff, List.forall₂_map_right_iff,
    List.forall₂_same]
  intro field hfield
  rw [Field.toValue, nameIn_ofTexts (h.fields field hfield).name rfl, ok_bind, pure_eq_ok]

theorem fieldsOf_toValue (h : WellFormedFields fields) :
    fieldsOf owner (.list (fields.map Field.toValue)) = .ok fields := by
  have hpairs : fieldsOfPairs owner []
      (fields.map fun field => (.text field.name, field.toValue)) = .ok fields :=
    fieldsOfPairs_toValue h (by simp)
  simp only [fieldsOf, Value.items?, namedBodies_toValue h, ok_bind, hpairs]

/-! ## Types, methods and schemas that were written -/

/-- A well-formed type is read back from what it is written as. -/
theorem typeOf_toValue {type : ObjectType} (h : type.WellFormed) :
    typeOf (.text type.name) type.toValue = .ok type := by
  rw [ObjectType.toValue, typeOf]
  simp only [nameAt_text h.name, ok_bind, pure_eq_ok, Entries.get_ofTexts]
  change (textAt _ (.text type.description) >>= fun description =>
    fieldsOf type.name (.list (type.properties.map Field.toValue)) >>= fun properties =>
      .ok ⟨type.name, description, properties⟩) = .ok type
  rw [textAt_text h.description, ok_bind, fieldsOf_toValue h.properties, ok_bind]

theorem typesOf_toValue {types : List ObjectType} (h : ∀ type ∈ types, type.WellFormed) :
    typesOf (.list (types.map ObjectType.toValue)) = .ok types := by
  simp only [typesOf, listAt, Value.items?, ok_bind]
  rw [mapM_eq_ok_iff, List.forall₂_map_left_iff, List.forall₂_same]
  intro type htype
  rw [ObjectType.toValue, nameIn_ofTexts (h type htype).name rfl, ok_bind]
  exact typeOf_toValue (h type htype)

/-- A well-formed method is read back from what it is written as. -/
theorem methodOf_toValue {method : Method} (h : method.WellFormed) :
    methodOf method.toValue = .ok method := by
  rw [Method.toValue, methodOf, nameIn_ofTexts h.name rfl, ok_bind]
  simp only [Value.entries?, Option.getD_some, Entries.get_ofTexts]
  change (textAt _ (.text method.description) >>= fun description =>
    fieldsOf _ (.list (method.inputs.map Field.toValue)) >>= fun inputs =>
      fieldsOf _ (.list (method.outputs.map Field.toValue)) >>= fun outputs =>
        .ok ⟨method.name, description, inputs, outputs⟩) = .ok method
  rw [textAt_text h.description, ok_bind, fieldsOf_toValue h.inputs, ok_bind,
    fieldsOf_toValue h.outputs, ok_bind]

theorem methodsOf_toValue {methods : List Method} (h : ∀ method ∈ methods, method.WellFormed) :
    methodsOf (.list (methods.map Method.toValue)) = .ok methods := by
  simp only [methodsOf, listAt, Value.items?, ok_bind]
  rw [mapM_eq_ok_iff, List.forall₂_map_left_iff, List.forall₂_same]
  exact fun method hmethod => methodOf_toValue (h method hmethod)

/-- Tags that are names are read back from the options they are written in. -/
theorem goTagsOf_toValue {tags : List String} (h : ∀ tag ∈ tags, Text.IsName tag) :
    goTagsOf (.map (Entries.ofTexts [("tags", .ofTexts tags)])) = .ok tags := by
  have hget : Entries.get (Entries.ofTexts [("tags", .ofTexts tags)]) "tags" =
      .list (tags.map Value.text) := Entries.get_ofTexts _ _
  simp only [goTagsOf, hget, Value.items?]
  rw [mapM_eq_ok_iff, List.forall₂_map_left_iff, List.forall₂_same]
  exact fun tag htag => tagOf_text (h tag htag)

/-- Distinct names are not found to repeat. -/
theorem firstRepeated?_eq_none {seen names : List String} (hnodup : names.Nodup)
    (hseen : ∀ name ∈ names, name ∉ seen) : firstRepeated? seen names = none := by
  induction names generalizing seen with
  | nil => rfl
  | cons name rest ih =>
      obtain ⟨hnot, hrest⟩ := List.nodup_cons.1 hnodup
      obtain ⟨hfresh, hothers⟩ := List.forall_mem_cons.1 hseen
      rw [firstRepeated?, if_neg (by simpa using hfresh)]
      apply ih hrest
      intro other hother hmem
      obtain rfl | hmem := List.mem_cons.1 hmem
      · exact hnot hother
      · exact hothers other hother hmem

/-- A schema is put together again from its parts. -/
theorem ofParts_self (schema : Schema) :
    ofParts schema.name schema.description schema.types schema.methods schema.goTags =
      .ok schema := by
  unfold ofParts
  split
  · next repeated h =>
    rw [firstRepeated?_eq_none schema.typeNames_nodup (by simp)] at h
    contradiction
  · split
    · next repeated h =>
      rw [firstRepeated?_eq_none schema.methodNames_nodup (by simp)] at h
      contradiction
    · rfl

/-- Reading the document of a well-formed schema gives the schema back. -/
theorem ofValue_toValue {schema : Schema} (h : schema.WellFormed) :
    ofValue schema.toValue = .ok schema := by
  rw [Schema.toValue, ofValue]
  simp only [Entries.get_ofTexts]
  change (typesOf (.list (schema.types.map ObjectType.toValue)) >>= fun types =>
    methodsOf (.list (schema.methods.map Method.toValue)) >>= fun methods =>
      textAt _ (.text schema.name) >>= fun name =>
        textAt _ (.text schema.description) >>= fun description =>
          goTagsOf (.map (Entries.ofTexts [("tags", .ofTexts schema.goTags)])) >>= fun tags =>
            ofParts name description types methods tags) = .ok schema
  rw [typesOf_toValue h.types, ok_bind, methodsOf_toValue h.methods, ok_bind,
    textAt_text h.name, ok_bind, textAt_text h.description, ok_bind,
    goTagsOf_toValue h.goTags, ok_bind, ofParts_self]

/-! ## Defaults as parts of the document -/

/-- A written descriptor repeats no key. -/
theorem keyed_descriptor (d : Descriptor) : ∀ entry ∈ d.entries, entry.2.Keyed := by
  induction d with
  | plain kind target =>
      cases target <;> simp [Descriptor.entries, Value.keyed_text]
  | nested kind target items ih =>
      have hitems : (Value.map (Entries.ofTexts items.entries)).Keyed := by
        apply Entries.keyed_ofTexts _ ih
        fun_cases Descriptor.entries items <;> simp
      simp [Descriptor.entries, Value.keyed_text, hitems]

/-- A written field repeats no key where its default repeats none. -/
theorem keyed_field (h : field.default.Keyed) : field.toValue.Keyed := by
  apply Entries.keyed_ofTexts
  · rw [Field.entries]
    fun_cases Descriptor.entries field.type <;> simp
  · rw [Field.entries, List.forall_mem_append]
    refine ⟨?_, keyed_descriptor field.type⟩
    have henum : (field.enum.elim .null Value.ofTexts).Keyed := by
      cases field.enum with
      | none => trivial
      | some texts => exact Value.keyed_ofTexts texts
    simp [h, henum, Value.Keyed]

theorem keyed_fields (h : ∀ field ∈ fields, field.default.Keyed) :
    (Value.list (fields.map Field.toValue)).Keyed := by
  rw [Value.keyed_list_iff, List.forall_mem_map]
  exact fun field hfield => keyed_field (h field hfield)

/-- The document of a schema is a proper datum if the defaults are. -/
theorem keyed_toValue {schema : Schema} (h : ∀ entry ∈ schema.ownedFields, entry.2.default.Keyed) :
    schema.toValue.Keyed := by
  obtain ⟨htypes, hmethods⟩ :=
    (forall_ownedFields_iff (P := fun field => field.default.Keyed)).1 h
  have htypes' : (Value.list (schema.types.map ObjectType.toValue)).Keyed := by
    rw [Value.keyed_list_iff, List.forall_mem_map]
    intro type htype
    apply Entries.keyed_ofTexts (by simp)
    simp [Value.keyed_text, keyed_fields (htypes type htype)]
  have hmethods' : (Value.list (schema.methods.map Method.toValue)).Keyed := by
    rw [Value.keyed_list_iff, List.forall_mem_map]
    intro method hmethod
    apply Entries.keyed_ofTexts (by simp)
    simp [Value.keyed_text, keyed_fields (hmethods method hmethod).1,
      keyed_fields (hmethods method hmethod).2]
  have htags : (Value.map (Entries.ofTexts [("tags", .ofTexts schema.goTags)])).Keyed :=
    Entries.keyed_ofTexts (by simp) (by simp [Value.keyed_ofTexts])
  apply Entries.keyed_ofTexts (by simp)
  simp [Value.keyed_text, htypes', hmethods', htags]

/-- The default of a field read from a value without repeated keys repeats none. -/
theorem keyed_default_of_fieldOf {v : Value} (hv : v.Keyed)
    (h : fieldOf owner name v = .ok field) : field.default.Keyed := by
  cases v with
  | map body =>
      simp only [fieldOf, bind_eq_ok_iff, pure_eq_ok, Except.ok.injEq] at h
      obtain ⟨required, -, description, -, type, -, enum, -, rfl⟩ := h
      exact Entries.keyed_get (Value.keyed_map_iff.1 hv).2
  | _ => contradiction

theorem keyed_defaults_of_fieldsOfPairs {seen : List String} {pairs : List (Value × Value)}
    (hpairs : ∀ pair ∈ pairs, pair.2.Keyed)
    (h : fieldsOfPairs owner seen pairs = .ok fields) : ∀ field ∈ fields, field.default.Keyed := by
  induction pairs generalizing seen fields with
  | nil =>
      obtain rfl := Except.ok.inj h
      simp
  | cons pair rest ih =>
      obtain ⟨key, body⟩ := pair
      rw [List.forall_mem_cons] at hpairs
      rw [fieldsOfPairs, bind_eq_ok_iff] at h
      obtain ⟨name, -, h⟩ := h
      split at h
      · contradiction
      · simp only [bind_eq_ok_iff, pure_eq_ok, Except.ok.injEq] at h
        obtain ⟨field, hfield, more, hmore, rfl⟩ := h
        exact List.forall_mem_cons.2
          ⟨keyed_default_of_fieldOf hpairs.1 hfield, ih hpairs.2 hmore⟩

theorem keyed_defaults_of_fieldsOf {v : Value} (hv : v.Keyed)
    (h : fieldsOf owner v = .ok fields) : ∀ field ∈ fields, field.default.Keyed := by
  unfold fieldsOf at h
  split at h
  · obtain rfl := Except.ok.inj h
    simp
  · exact keyed_defaults_of_fieldsOfPairs (Value.keyed_map_iff.1 hv).2 h
  · split at h
    · next items hitems =>
      obtain ⟨pairs, hpairs, hfields⟩ := bind_eq_ok_iff.1 h
      apply keyed_defaults_of_fieldsOfPairs _ hfields
      intro pair hpair
      obtain ⟨item, hitem, hof⟩ := exists_of_mem_mapM hpairs hpair
      obtain ⟨name, -, hpair⟩ := bind_eq_ok_iff.1 hof
      obtain rfl := Except.ok.inj hpair
      exact hv.items hitems item hitem
    · contradiction

theorem keyed_defaults_of_typeOf {key v : Value} {type : ObjectType} (hv : v.Keyed)
    (h : typeOf key v = .ok type) : ∀ field ∈ type.properties, field.default.Keyed := by
  obtain ⟨name, -, h⟩ := bind_eq_ok_iff.1 h
  cases v with
  | null =>
      simp only [bind_eq_ok_iff, pure_eq_ok, Except.ok.injEq] at h
      obtain ⟨entries, rfl, description, -, properties, hproperties, rfl⟩ := h
      exact keyed_defaults_of_fieldsOf (Entries.keyed_get (by simp)) hproperties
  | map body =>
      simp only [bind_eq_ok_iff, pure_eq_ok, Except.ok.injEq] at h
      obtain ⟨entries, rfl, description, -, properties, hproperties, rfl⟩ := h
      exact keyed_defaults_of_fieldsOf (Entries.keyed_get (Value.keyed_map_iff.1 hv).2) hproperties
  | _ => contradiction

/-- The items of a list without repeated keys repeat none. -/
theorem keyed_of_listAt {v : Value} {items : List Value} (hv : v.Keyed)
    (h : listAt place v = .ok items) : ∀ item ∈ items, item.Keyed := by
  unfold listAt at h
  split at h
  · obtain rfl := Except.ok.inj h
    simp
  · split at h
    · next hitems => exact Except.ok.inj h ▸ hv.items hitems
    · contradiction

theorem keyed_defaults_of_typesOf {v : Value} {types : List ObjectType} (hv : v.Keyed)
    (h : typesOf v = .ok types) :
    ∀ type ∈ types, ∀ field ∈ type.properties, field.default.Keyed := by
  intro type htype
  unfold typesOf at h
  split at h
  · obtain ⟨⟨key, body⟩, hentry, hof⟩ := exists_of_mem_mapM h htype
    exact keyed_defaults_of_typeOf ((Value.keyed_map_iff.1 hv).2 _ hentry) hof
  · obtain ⟨items, hitems, h⟩ := bind_eq_ok_iff.1 h
    obtain ⟨item, hitem, hof⟩ := exists_of_mem_mapM h htype
    obtain ⟨name, -, hof⟩ := bind_eq_ok_iff.1 hof
    exact keyed_defaults_of_typeOf (keyed_of_listAt hv hitems item hitem) hof

theorem keyed_defaults_of_methodOf {v : Value} {method : Method} (hv : v.Keyed)
    (h : methodOf v = .ok method) :
    (∀ field ∈ method.inputs, field.default.Keyed) ∧
      ∀ field ∈ method.outputs, field.default.Keyed := by
  simp only [methodOf, bind_eq_ok_iff, pure_eq_ok, Except.ok.injEq] at h
  obtain ⟨name, -, description, -, inputs, hinputs, outputs, houtputs, rfl⟩ := h
  have hentries : ∀ entry ∈ v.entries?.getD [], entry.2.Keyed := by
    cases v with
    | map entries => exact (Value.keyed_map_iff.1 hv).2
    | _ => simp [Value.entries?]
  exact ⟨keyed_defaults_of_fieldsOf (Entries.keyed_get hentries) hinputs,
    keyed_defaults_of_fieldsOf (Entries.keyed_get hentries) houtputs⟩

/-- The defaults of a schema are parts of its document. -/
theorem keyed_defaults_of_ofValue {schema : Schema} {v : Value} (hv : v.Keyed)
    (h : ofValue v = .ok schema) : ∀ entry ∈ schema.ownedFields, entry.2.default.Keyed := by
  cases v with
  | map root =>
      have hget (key : String) : (Entries.get root key).Keyed :=
        Entries.keyed_get (Value.keyed_map_iff.1 hv).2
      simp only [ofValue, bind_eq_ok_iff] at h
      obtain ⟨types, htypes, methods, hmethods, name, -, description, -, goTags, -, h⟩ := h
      obtain ⟨rfl, rfl, rfl, rfl, rfl⟩ := parts_of_ofParts h
      refine forall_ownedFields_iff.2 ⟨keyed_defaults_of_typesOf (hget _) htypes, ?_⟩
      intro method hmethod
      obtain ⟨items, hitems, hmethods⟩ := bind_eq_ok_iff.1 hmethods
      obtain ⟨item, hitem, hof⟩ := exists_of_mem_mapM hmethods hmethod
      exact keyed_defaults_of_methodOf (keyed_of_listAt (hget _) hitems item hitem) hof
  | _ => contradiction

/-! ## The schemas that documents describe -/

/-- **The schemas that documents describe are the well-formed ones.**  Every proper
datum can stand as a default, and nothing else where the document is a proper
datum itself. -/
theorem exists_ofValue_iff (schema : Schema) :
    ((∃ root, ofValue root = .ok schema) ↔ schema.WellFormed) ∧
      ((∃ root : Value, root.Keyed ∧ ofValue root = .ok schema) ↔
        schema.WellFormed ∧ ∀ entry ∈ schema.ownedFields, entry.2.default.Keyed) := by
  constructor
  · constructor
    · rintro ⟨root, hroot⟩
      exact wellFormed_of_ofValue hroot
    · intro hschema
      exact ⟨schema.toValue, ofValue_toValue hschema⟩
  · constructor
    · rintro ⟨root, hkeyed, hroot⟩
      exact ⟨wellFormed_of_ofValue hroot, keyed_defaults_of_ofValue hkeyed hroot⟩
    · rintro ⟨hschema, hdefaults⟩
      exact ⟨schema.toValue, keyed_toValue hdefaults, ofValue_toValue hschema⟩

end Schema

end RpcBindings
