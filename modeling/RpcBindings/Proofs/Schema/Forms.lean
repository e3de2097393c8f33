import RpcBindings.Proofs.Schema.Document
import RpcBindings.Proofs.Schema.References

/-!
# RpcBindings.Proofs.Schema.Forms

The two forms in which definitions are written: as a mapping from names to
definitions, and as a list of definitions that hold their names.  In a mapping a
definition is read under the key as it stands, in a list under the name that it
holds, and the names of a list are read before any definition; the two agree on
what they accept and on what comes out (`fieldsOf_forms`, `typeOf_of_named`).  So a
document describes the same schema in every mixture of the forms of its types,
properties, inputs and outputs (`SameDocument.ofValue_eq_ok_iff`).
-/

namespace RpcBindings

namespace Schema

/-! ## Forms -/

/-- A definition under a name, and the definition with its name set to it. -/
inductive Named : Value × Value → Value → Prop where
  | intro {name : Value} {body body' : Entries} (hname : Entries.get body' "name" = name)
      (hrest : ∀ key, key ≠ "name" → Entries.find? body' key = Entries.find? body key) :
    Named (name, .map body) (.map body')

/-- Fields in one form or the other. -/
inductive SameFields : Value → Value → Prop where
  | same (v : Value) : SameFields v v
  | forms {entries : List (Value × Value)} {items : List Value}
      (h : List.Forall₂ Named entries items) : SameFields (.map entries) (.list items)
  | symm {v v' : Value} (h : SameFields v v') : SameFields v' v
  | trans {v v' v'' : Value} (h : SameFields v v') (h' : SameFields v' v'') : SameFields v v''

/-- Definitions that differ in the forms of their fields, which stand under certain keys. -/
inductive SameBody (keys : List String) : Value → Value → Prop where
  | same (v : Value) : SameBody keys v v
  | fields {body body' : Entries}
      (hrest : ∀ key, key ∉ keys → Entries.find? body' key = Entries.find? body key)
      (hfields : ∀ key ∈ keys, SameFields (Entries.get body key) (Entries.get body' key)) :
    SameBody keys (.map body) (.map body')

/-- Types in one form or the other, and their properties likewise. -/
inductive SameTypes : Value → Value → Prop where
  | same (v : Value) : SameTypes v v
  | forms {entries : List (Value × Value)} {items : List Value}
      (h : List.Forall₂ Named entries items) : SameTypes (.map entries) (.list items)
  | mapping {entries entries' : List (Value × Value)}
      (h : List.Forall₂
        (fun entry entry' => entry.1 = entry'.1 ∧ SameBody ["properties"] entry.2 entry'.2)
        entries entries') : SameTypes (.map entries) (.map entries')
  | list {items items' : List Value} (h : List.Forall₂ (SameBody ["properties"]) items items') :
    SameTypes (.list items) (.list items')
  | symm {v v' : Value} (h : SameTypes v v') : SameTypes v' v
  | trans {v v' v'' : Value} (h : SameTypes v v') (h' : SameTypes v' v'') : SameTypes v v''

/-- Methods with inputs and outputs in one form or the other. -/
inductive SameMethods : Value → Value → Prop where
  | same (v : Value) : SameMethods v v
  | list {items items' : List Value}
      (h : List.Forall₂ (SameBody ["inputs", "outputs"]) items items') :
    SameMethods (.list items) (.list items')

/-- Documents that differ in the forms of their types and fields. -/
inductive SameDocument : Value → Value → Prop where
  | intro {root root' : Entries}
      (hrest : ∀ key, key ∉ ["types", "methods"] →
        Entries.find? root' key = Entries.find? root key)
      (htypes : SameTypes (Entries.get root "types") (Entries.get root' "types"))
      (hmethods : SameMethods (Entries.get root "methods") (Entries.get root' "methods")) :
    SameDocument (.map root) (.map root')

variable {owner place what name : String} {key v v' v'' : Value} {body body' : Entries}
  {entries entries' : List (Value × Value)} {items items' : List Value}

/-! ## Definitions -/

/-- The value under a key depends on what is found there only. -/
theorem get_congr (h : Entries.find? body' name = Entries.find? body name) :
    Entries.get body' name = Entries.get body name := by
  rw [Entries.get, Entries.get, h]

/-- A descriptor is read from the three keys that name a type. -/
theorem descriptorOf_congr (place : String)
    (h : ∀ key ∈ ["$ref", "type", "items"], Entries.find? body' key = Entries.find? body key) :
    descriptorOf place body' = descriptorOf place body := by
  have href := get_congr (h "$ref" (by simp))
  have htype := get_congr (h "type" (by simp))
  have hitems := h "items" (by simp)
  unfold descriptorOf
  rw [href, htype]
  generalize Entries.find? body' "items" = found at hitems ⊢
  subst hitems
  rfl

/-- The name in the definition of a field is not read. -/
theorem fieldOf_congr {entry : Value × Value} {item : Value} (h : Named entry item)
    (owner name : String) : fieldOf owner name item = fieldOf owner name entry.2 := by
  cases h with
  | intro hname hrest =>
      have hdescriptor (place : String) := descriptorOf_congr place fun key hkey =>
        hrest key (by rintro rfl; simp at hkey)
      simp only [fieldOf, hdescriptor, hrest "required" (by decide),
        get_congr (hrest "description" (by decide)), get_congr (hrest "enum" (by decide)),
        get_congr (hrest "default" (by decide))]

/-- Whether a value is a name does not depend on the place. -/
theorem nameAt_eq_ok_congr (place place' : String) :
    nameAt place key = .ok name ↔ nameAt place' key = .ok name := by
  cases key with
  | text s =>
      simp only [nameAt]
      split <;> simp
  | _ => simp [nameAt]

/-- A name that was read is read again as it is. -/
theorem nameAt_of_nameAt {place' : String} (h : nameAt place key = .ok name) :
    nameAt place' (.text name) = .ok name :=
  nameAt_text (isName_of_nameAt h)

/-- The name in a definition is the one that it stands under. -/
theorem nameIn_of_named {entry : Value × Value} {item : Value} (h : Named entry item) :
    nameIn what item = nameAt s!"{what} name" entry.1 := by
  cases h with
  | intro hname hrest => rw [nameIn, hname]

/-! ## Fields -/

/-- Definitions in a list are read under the names that they hold as in a mapping. -/
theorem fieldsOfPairs_of_namedBodies {pairs : List (Value × Value)}
    (h : List.Forall₂ Named entries items) (hpairs : namedBodies what items = .ok pairs)
    (owner : String) (seen : List String) :
    fieldsOfPairs owner seen pairs = fieldsOfPairs owner seen entries := by
  rw [namedBodies, mapM_eq_ok_iff] at hpairs
  induction h generalizing pairs seen with
  | nil =>
      rw [List.forall₂_nil_left_iff] at hpairs
      rw [hpairs]
  | @cons entry item entries items hfirst hrest ih =>
      obtain ⟨pair, more, hpair, hmore, rfl⟩ := List.forall₂_cons_left_iff.1 hpairs
      obtain ⟨name, hname, heq⟩ := bind_eq_ok_iff.1 hpair
      cases heq
      rw [nameIn_of_named hfirst] at hname
      have hentry : nameAt s!"{owner} field name" entry.1 = .ok name :=
        (nameAt_eq_ok_congr _ _).1 hname
      rw [fieldsOfPairs, fieldsOfPairs.eq_def owner seen (entry :: entries)]
      simp only [nameAt_of_nameAt hname, hentry, ok_bind, fieldOf_congr hfirst, ih hmore]

/-- Where a mapping is read all names are names. -/
theorem exists_namedBodies (h : List.Forall₂ Named entries items) {seen : List String}
    {fields : List Field} (hfields : fieldsOfPairs owner seen entries = .ok fields) :
    ∃ pairs, namedBodies what items = .ok pairs := by
  apply mapM_isOk
  induction h generalizing seen fields with
  | nil => simp
  | @cons entry item entries items hfirst hrest ih =>
      rw [fieldsOfPairs, bind_eq_ok_iff] at hfields
      obtain ⟨name, hname, hfields⟩ := hfields
      rw [List.forall_mem_cons]
      split at hfields
      · contradiction
      · simp only [bind_eq_ok_iff] at hfields
        obtain ⟨field, -, more, hmore, -⟩ := hfields
        refine ⟨⟨(.text name, item), ?_⟩, ih hmore⟩
        rw [nameIn_of_named hfirst, (nameAt_eq_ok_congr _ _).1 hname]
        rfl

/-- A mapping by name and a list of named entries give the same fields. -/
theorem fieldsOf_forms (h : List.Forall₂ Named entries items) {fields : List Field} :
    fieldsOf owner (.map entries) = .ok fields ↔ fieldsOf owner (.list items) = .ok fields := by
  simp only [fieldsOf, Value.items?, bind_eq_ok_iff]
  constructor
  · intro hfields
    obtain ⟨pairs, hpairs⟩ := exists_namedBodies h hfields
    exact ⟨pairs, hpairs, by rw [fieldsOfPairs_of_namedBodies h hpairs, hfields]⟩
  · rintro ⟨pairs, hpairs, hfields⟩
    rw [← fieldsOfPairs_of_namedBodies h hpairs, hfields]

/-- The two forms of a field list are accepted alike, as the same fields. -/
theorem SameFields.fieldsOf_eq_ok_iff (h : SameFields v v') (owner : String)
    (fields : List Field) : fieldsOf owner v = .ok fields ↔ fieldsOf owner v' = .ok fields := by
  induction h with
  | same v => rfl
  | forms h => exact fieldsOf_forms h
  | symm _ ih => exact ih.symm
  | trans _ _ ih ih' => exact ih.trans ih'

/-! ## Types -/

/-- The two forms of a type's properties are accepted alike, as the same type. -/
theorem SameBody.typeOf_eq_ok_iff (h : SameBody ["properties"] v v') {type : ObjectType} :
    typeOf key v = .ok type ↔ typeOf key v' = .ok type := by
  cases h with
  | same v => rfl
  | fields hrest hfields =>
      have hdescription := get_congr (hrest "description" (by decide))
      have hproperties := (hfields "properties" (by simp)).fieldsOf_eq_ok_iff
      simp only [typeOf, pure_eq_ok, ok_bind, bind_eq_ok_iff, hdescription, hproperties]

/-- A definition of a type with its name in it. -/
theorem typeOf_of_named {entry : Value × Value} {item : Value} (h : Named entry item) :
    (nameIn "type" item >>= fun name => typeOf (.text name) item) =
      typeOf entry.1 entry.2 := by
  have hin : nameIn "type" item = nameAt "type name" entry.1 := nameIn_of_named h
  rw [hin]
  cases h with
  | @intro key body body' hname hrest =>
      cases hkey : nameAt "type name" key with
      | error e => simp only [typeOf, hkey, error_bind]
      | ok name =>
          simp only [typeOf, hkey, nameAt_of_nameAt hkey, pure_eq_ok, ok_bind,
            get_congr (hrest "description" (by decide)),
            get_congr (hrest "properties" (by decide))]

/-- Definitions that differ in the forms of their fields hold the same name. -/
theorem SameBody.nameIn_eq {keys : List String} (h : SameBody keys v v') (hkeys : "name" ∉ keys) :
    nameIn what v = nameIn what v' := by
  cases h with
  | same v => rfl
  | fields hrest hfields => rw [nameIn, nameIn, get_congr (hrest "name" hkeys)]

/-- The two forms of the types are accepted alike, as the same types. -/
theorem SameTypes.typesOf_eq_ok_iff (h : SameTypes v v') {types : List ObjectType} :
    typesOf v = .ok types ↔ typesOf v' = .ok types := by
  induction h with
  | same v => rfl
  | @forms entries items h =>
      simp only [typesOf, listAt, Value.items?, ok_bind]
      refine mapM_eq_ok_iff_of_forall₂ h fun entry item hnamed type => ?_
      rw [typeOf_of_named hnamed]
  | mapping h =>
      refine mapM_eq_ok_iff_of_forall₂ h fun entry entry' hsame type => ?_
      obtain ⟨hkey, hbody⟩ := hsame
      show typeOf entry.1 entry.2 = .ok type ↔ typeOf entry'.1 entry'.2 = .ok type
      rw [hkey]
      exact hbody.typeOf_eq_ok_iff
  | list h =>
      simp only [typesOf, listAt, Value.items?, ok_bind]
      refine mapM_eq_ok_iff_of_forall₂ h fun item item' hsame type => ?_
      rw [hsame.nameIn_eq (by decide)]
      simp only [bind_eq_ok_iff, hsame.typeOf_eq_ok_iff]
  | symm _ ih => exact ih.symm
  | trans _ _ ih ih' => exact ih.trans ih'

/-! ## Methods -/

/-- The two forms of a method's fields are accepted alike, as the same method. -/
theorem SameBody.methodOf_eq_ok_iff (h : SameBody ["inputs", "outputs"] v v') {method : Method} :
    methodOf v = .ok method ↔ methodOf v' = .ok method := by
  have hname : nameIn "method" v = nameIn "method" v' := h.nameIn_eq (by decide)
  cases h with
  | same v => rfl
  | fields hrest hfields =>
      have hdescription := get_congr (hrest "description" (by decide))
      have hinputs := (hfields "inputs" (by simp)).fieldsOf_eq_ok_iff
      have houtputs := (hfields "outputs" (by simp)).fieldsOf_eq_ok_iff
      simp only [methodOf, hname, Value.entries?, Option.getD_some, pure_eq_ok, bind_eq_ok_iff,
        hdescription, hinputs, houtputs]

/-- Methods with their fields in either form are accepted alike, as the same methods. -/
theorem SameMethods.methodsOf_eq_ok_iff (h : SameMethods v v') {methods : List Method} :
    methodsOf v = .ok methods ↔ methodsOf v' = .ok methods := by
  cases h with
  | same v => rfl
  | list h =>
      simp only [methodsOf, listAt, Value.items?, ok_bind]
      exact mapM_eq_ok_iff_of_forall₂ h fun item item' hsame method => hsame.methodOf_eq_ok_iff

end Schema

/-! ## Schemas written with mappings -/

/-- A field under its name. -/
def Field.toEntry (field : Field) : Value × Value :=
  (.text field.name, .map (Entries.ofTexts field.entries.tail))

/-- A type under its name. -/
def ObjectType.toEntry (type : ObjectType) : Value × Value :=
  (.text type.name, .map (Entries.ofTexts
    [("description", .text type.description),
     ("properties", .map (type.properties.map Field.toEntry))]))

/-- The same with its properties in a list. -/
def ObjectType.toListEntry (type : ObjectType) : Value × Value :=
  (.text type.name, .map (Entries.ofTexts
    [("description", .text type.description),
     ("properties", .list (type.properties.map Field.toValue))]))

def Method.toMapping (method : Method) : Value :=
  .map (Entries.ofTexts
    [("name", .text method.name), ("description", .text method.description),
     ("inputs", .map (method.inputs.map Field.toEntry)),
     ("outputs", .map (method.outputs.map Field.toEntry))])

namespace Schema

/-- The document of a schema in which types and fields stand under their names. -/
def toMapping (schema : Schema) : Value :=
  .map (Entries.ofTexts
    [("name", .text schema.name), ("description", .text schema.description),
     ("types", .map (schema.types.map ObjectType.toEntry)),
     ("methods", .list (schema.methods.map Method.toMapping)),
     ("go", .map (Entries.ofTexts [("tags", .ofTexts schema.goTags)]))])

theorem named_ofTexts (name : Value) (entries : List (String × Value)) :
    Named (name, .map (Entries.ofTexts entries))
      (.map (Entries.ofTexts (("name", name) :: entries))) := by
  refine .intro (Entries.get_ofTexts _ _) fun key hkey => ?_
  rw [Entries.find?_ofTexts, Entries.find?_ofTexts, List.lookup_cons, beq_eq_false_iff_ne.2 hkey]

theorem sameFields_toEntry (fields : List Field) :
    SameFields (.map (fields.map Field.toEntry)) (.list (fields.map Field.toValue)) := by
  refine .forms ?_
  rw [List.forall₂_map_left_iff, List.forall₂_map_right_iff, List.forall₂_same]
  exact fun field _ => named_ofTexts _ _

theorem sameBody_toMapping (method : Method) :
    SameBody ["inputs", "outputs"] method.toMapping method.toValue := by
  refine .fields (fun key hkey => ?_) fun key hkey => ?_
  · obtain ⟨hinputs, houtputs⟩ : key ≠ "inputs" ∧ key ≠ "outputs" := by simpa using hkey
    simp only [Entries.find?_ofTexts, List.lookup_cons, beq_eq_false_iff_ne.2 hinputs,
      beq_eq_false_iff_ne.2 houtputs]
  · obtain rfl | rfl : key = "inputs" ∨ key = "outputs" := by simpa using hkey
    · exact sameFields_toEntry method.inputs
    · exact sameFields_toEntry method.outputs

theorem sameBody_toListEntry (type : ObjectType) :
    SameBody ["properties"] type.toEntry.2 type.toListEntry.2 := by
  refine .fields (fun key hkey => ?_) fun key hkey => ?_
  · have hproperties : key ≠ "properties" := by simpa using hkey
    simp only [Entries.find?_ofTexts, List.lookup_cons, beq_eq_false_iff_ne.2 hproperties]
  · obtain rfl : key = "properties" := by simpa using hkey
    exact sameFields_toEntry type.properties

/-- Types change their own form once their properties have changed theirs. -/
theorem sameTypes_toEntry (types : List ObjectType) :
    SameTypes (.map (types.map ObjectType.toEntry)) (.list (types.map ObjectType.toValue)) := by
  have hproperties : SameTypes (.map (types.map ObjectType.toEntry))
      (.map (types.map ObjectType.toListEntry)) := by
    refine .mapping ?_
    rw [List.forall₂_map_left_iff, List.forall₂_map_right_iff, List.forall₂_same]
    exact fun type _ => ⟨rfl, sameBody_toListEntry type⟩
  refine hproperties.trans (.forms ?_)
  rw [List.forall₂_map_left_iff, List.forall₂_map_right_iff, List.forall₂_same]
  exact fun type _ => named_ofTexts _ _

/-- A schema is the same document in the one form and in the other. -/
theorem sameDocument_toMapping (schema : Schema) :
    SameDocument schema.toMapping schema.toValue := by
  refine .intro (fun key hkey => ?_) (sameTypes_toEntry schema.types) (.list ?_)
  · obtain ⟨htypes, hmethods⟩ : key ≠ "types" ∧ key ≠ "methods" := by simpa using hkey
    simp only [Entries.find?_ofTexts, List.lookup_cons, beq_eq_false_iff_ne.2 htypes,
      beq_eq_false_iff_ne.2 hmethods]
  · rw [List.forall₂_map_left_iff, List.forall₂_map_right_iff, List.forall₂_same]
    exact fun method _ => sameBody_toMapping method

/-! ## Documents -/

/-- **The form makes no difference.**  Of two documents that differ in the forms of their types and
fields, one describes a schema just where the other describes it. -/
theorem SameDocument.ofValue_eq_ok_iff (h : SameDocument v v') (schema : Schema) :
    ofValue v = .ok schema ↔ ofValue v' = .ok schema := by
  cases h with
  | intro hrest htypes hmethods =>
      simp only [ofValue, bind_eq_ok_iff, htypes.typesOf_eq_ok_iff, hmethods.methodsOf_eq_ok_iff,
        get_congr (hrest "name" (by decide)), get_congr (hrest "description" (by decide)),
        get_congr (hrest "go" (by decide))]

/-- Trees are described by a document that has them under their names. -/
theorem trees_ofValue_toMapping :
    SameDocument trees.toMapping trees.toValue ∧ ofValue trees.toMapping = .ok trees :=
  ⟨sameDocument_toMapping trees,
    ((sameDocument_toMapping trees).ofValue_eq_ok_iff trees).2 (ofValue_toValue wellFormed_trees)⟩

end Schema

end RpcBindings
