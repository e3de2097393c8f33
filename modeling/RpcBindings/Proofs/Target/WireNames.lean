import RpcBindings.Proofs.Emission.Members
import RpcBindings.Proofs.Schema.Document
import RpcBindings.Proofs.Target.PropertyAccess
import RpcBindings.Proofs.Target.StructNames
import RpcBindings.Proofs.Typing.Marks

/-!
# RpcBindings.Proofs.Target.WireNames

Names of fields on the wire.  The members of a declaration are written under the names of the
fields that were read, and no two of these are equal: in Rust by the identifier or the attribute in
front of it, in TypeScript by the key of the property, which validation looks at as well
(`members_keep_names`).  Only a description that leaves its comment can give a member another name
in the finished text (`members_lose_name`).
-/

namespace RpcBindings.Emitter

variable {e : Emitter} {owner place : String} {fields : List Field} {d : Declaration} {m : Member}
  {v : Value}

/-- A member is what one of the fields has become. -/
theorem hasMember_of_mem (hmembers : e.members owner fields = .ok d.members)
    (hm : m ∈ d.members) : m.field ∈ fields ∧ e.HasMember owner m.field m := by
  obtain ⟨field, hfield, hmember⟩ := exists_left_of_forall₂ (members_eq_ok hmembers) hm
  obtain rfl := hmember.source
  exact ⟨hfield, hmember⟩

/-- The members of a declaration are those of its fields, in order. -/
theorem map_name_of_members (hmembers : e.members owner fields = .ok d.members) :
    d.members.map (·.field.name) = fields.map (·.name) := by
  rw [← map_field_of_members hmembers, List.map_map]
  rfl

/-- The type of a member is on one line. -/
theorem notMem_type (hmembers : e.members owner fields = .ok d.members)
    (hwell : WellFormedFields fields) (hm : m ∈ d.members) : '\n' ∉ m.type.toList := by
  obtain ⟨hfield, hmember⟩ := hasMember_of_mem hmembers hm
  exact TypeSystem.notMem_expressField (hwell.fields _ hfield).type.shape hmember.type

/-! ## Rust -/

section

variable (hlanguage : e.language = .rust) (hmembers : e.members owner fields = .ok d.members)
include hlanguage hmembers

/-- A Rust member is named by the escaped name of its field. -/
theorem identifier_eq_rustMember (hm : m ∈ d.members) :
    m.identifier = Name.rustMember m.field.name := by
  have hidentifier := (hasMember_of_mem hmembers hm).2.identifier
  rw [hlanguage] at hidentifier
  exact (Language.casing_of_identifier hidentifier).symm

/-- The lines that are drafted for a struct keep the names of its fields. -/
theorem wireNames_lines (options : Options) :
    Rust.wireNames none (Draft.lines Rust.dialect.indentUnit (Rust.declaration options d)) =
      fields.map (·.name) := by
  rw [Rust.wireNames_lines options fun m => identifier_eq_rustMember hlanguage hmembers,
    map_name_of_members hmembers]

/-- And so does its text, where comments are nothing but comments. -/
theorem wireNames_render (options : Options) (hwell : WellFormedFields fields)
    (hname : '\n' ∉ d.name.toList) (hconfined : Rust.overruns d = []) :
    Rust.wireNames none (Text.codeLines "//"
        (Draft.render Rust.dialect.indentUnit (Rust.declaration options d))) =
      fields.map (·.name) := by
  rw [Rust.wireNames_render options (fun m => identifier_eq_rustMember hlanguage hmembers)
    (fun m => notMem_type hmembers hwell) hname hconfined, map_name_of_members hmembers]

end

/-! ## TypeScript -/

section

variable (hlanguage : e.language = .typescript)
  (hmembers : e.members owner fields = .ok d.members) (hwell : WellFormedFields fields)
include hlanguage hmembers

/-- A TypeScript member is named by the name of its field. -/
theorem identifier_eq_name (hm : m ∈ d.members) : m.identifier = m.field.name := by
  have hidentifier := (hasMember_of_mem hmembers hm).2.identifier
  rw [hlanguage] at hidentifier
  exact (Language.casing_of_identifier hidentifier).symm

/-- The identifiers of TypeScript members are the names of the fields, in order. -/
theorem map_identifier_of_members : d.members.map (·.identifier) = fields.map (·.name) := by
  rw [← map_name_of_members hmembers]
  exact List.map_congr_left fun m => identifier_eq_name hlanguage hmembers

include hwell

/-- The identifier of a TypeScript member ends in no blank. -/
theorem endsSolid_identifier (hm : m ∈ d.members) : Text.EndsSolid m.identifier.toList := by
  rw [identifier_eq_name hlanguage hmembers hm]
  exact (hwell.fields _ (hasMember_of_mem hmembers hm).1).name.trimmed.ending

/-- The lines that are drafted for an interface keep the names of its fields. -/
theorem properties_lines (options : Options) :
    TypeScript.properties false
        (Draft.lines TypeScript.dialect.indentUnit (TypeScript.declaration options d)) =
      fields.map (·.name) := by
  rw [TypeScript.properties_lines options fun m => endsSolid_identifier hlanguage hmembers hwell,
    map_identifier_of_members hlanguage hmembers]

/-- And so does its text, where no comment ends too early. -/
theorem properties_render (options : Options) (hname : '\n' ∉ d.name.toList)
    (hcomments : ∀ text ∈ TypeScript.comments d, TypeScript.endsComment text.toList = false) :
    TypeScript.properties false (Text.split '\n'
        (Draft.render TypeScript.dialect.indentUnit (TypeScript.declaration options d))) =
      fields.map (·.name) := by
  rw [TypeScript.properties_render options
    (fun m => endsSolid_identifier hlanguage hmembers hwell) (fun m => notMem_type hmembers hwell)
    hname hcomments, map_identifier_of_members hlanguage hmembers]

/-- Each step of the plan for the fields is written for the member of its field, and looks at the
property of this name. -/
theorem looksAt_of_rulesOf {name : String} {rules : List FieldRules}
    (hrules : (e.schema.rulesOf name fields).outcome = .ok rules) :
    List.Forall₂ (fun r entry => entry.1 ∈ d.members ∧ entry.1.field = r.field ∧
        entry.2 = r.steps ∧ ∀ s ∈ entry.2, TypeScript.LooksAt entry.1 s r.field.name)
      rules (d.ruled ⟨name, rules⟩) := by
  have hruled := ruled_eq_map hwell.nodup hrules (map_field_of_members hmembers)
  rw [List.forall₂_iff_get] at hruled ⊢
  refine ⟨hruled.1, fun i hi hi' => ?_⟩
  obtain ⟨hm, hfield, hsteps⟩ := hruled.2 i hi hi'
  refine ⟨hm, hfield, hsteps, fun s hs => ?_⟩
  have hof := Schema.fieldSteps_of_mem_rulesOf hrules (List.get_mem rules ⟨i, hi⟩)
  have hsuits := Schema.suits_of_fieldSteps hof s (hsteps ▸ hs)
  rw [← hfield] at hsuits ⊢
  rw [← identifier_eq_name hlanguage hmembers hm]
  exact TypeScript.looksAt_identifier (endsSolid_identifier hlanguage hmembers hwell hm) hsuits

end

/-- **Fields keep their names**, in the lines that are drafted for them and, where comments are
nothing but comments, in the finished text. -/
theorem members_keep_names (hfields : Schema.fieldsOf place v = .ok fields)
    (hmembers : e.members owner fields = .ok d.members) (options : Options) :
    (fields.map (·.name)).Nodup ∧
      (e.language = .rust →
        Rust.wireNames none (Draft.lines Rust.dialect.indentUnit (Rust.declaration options d)) =
            fields.map (·.name) ∧
          ('\n' ∉ d.name.toList → Rust.overruns d = [] →
            Rust.wireNames none (Text.codeLines "//"
                (Draft.render Rust.dialect.indentUnit (Rust.declaration options d))) =
              fields.map (·.name))) ∧
      (e.language = .typescript →
        TypeScript.properties false
              (Draft.lines TypeScript.dialect.indentUnit (TypeScript.declaration options d)) =
            fields.map (·.name) ∧
          ('\n' ∉ d.name.toList →
            (∀ text ∈ TypeScript.comments d, TypeScript.endsComment text.toList = false) →
            TypeScript.properties false (Text.split '\n'
                (Draft.render TypeScript.dialect.indentUnit (TypeScript.declaration options d))) =
              fields.map (·.name)) ∧
          ∀ name rules, (e.schema.rulesOf name fields).outcome = .ok rules →
            List.Forall₂ (fun r entry => entry.1 ∈ d.members ∧ entry.1.field = r.field ∧
                entry.2 = r.steps ∧ ∀ s ∈ entry.2, TypeScript.LooksAt entry.1 s r.field.name)
              rules (d.ruled ⟨name, rules⟩)) := by
  have hwell := Schema.wellFormed_of_fieldsOf hfields
  refine ⟨hwell.nodup, fun hlanguage => ⟨?_, ?_⟩, fun hlanguage => ⟨?_, ?_, ?_⟩⟩
  · exact wireNames_lines hlanguage hmembers options
  · exact wireNames_render hlanguage hmembers options hwell
  · exact properties_lines hlanguage hmembers hwell options
  · exact properties_render hlanguage hmembers hwell options
  · intro name rules hrules
    exact looksAt_of_rulesOf hlanguage hmembers hwell hrules

/-- A schema with one type. -/
def holding (fields : List Field) : Schema where
  name := ""
  description := ""
  types := [{ name := "Held", description := "", properties := fields }]
  methods := []
  goTags := []
  typeNames_nodup := List.nodup_singleton _
  methodNames_nodup := List.nodup_nil

/-- A keyword, and a name of two lines that is no identifier. -/
def oddFields : List Field :=
  [{ name := "type", type := .primitive .string, description := "either one", required := true
     default := .null, enum := some ["odd", "even"] },
   { name := "\"how many\"\nin all", type := .array (.primitive .int)
     description := "the numbers", required := false, default := .null, enum := none }]

theorem wellFormed_oddFields : WellFormedFields oddFields where
  nodup := by decide
  fields := by
    rw [oddFields, List.forall_mem_cons, List.forall_mem_singleton]
    exact ⟨⟨by decide, by decide, Descriptor.wellFormed_primitive rfl⟩,
      ⟨by decide, by decide, Descriptor.wellFormed_array (Descriptor.wellFormed_primitive rfl)⟩⟩

theorem oddFields_keep_names :
    ∃ v e e', ∃ d d' : Declaration, ∃ rules, Schema.fieldsOf "Held" v = .ok oddFields ∧
      (create .rust (holding oddFields) {} = .ok e ∧ e.members "Held" oddFields = .ok d.members ∧
        Rust.wireNames none (Text.codeLines "//"
            (Draft.render Rust.dialect.indentUnit (Rust.declaration {} d))) =
          ["type", "\"how many\"\nin all"]) ∧
      create .typescript (holding oddFields) {} = .ok e' ∧
        e'.members "Held" oddFields = .ok d'.members ∧
        TypeScript.properties false (Text.split '\n'
            (Draft.render TypeScript.dialect.indentUnit (TypeScript.declaration {} d'))) =
          ["type", "\"how many\"\nin all"] ∧
        (e'.schema.rulesOf "Held" oddFields).outcome = .ok rules ∧
        List.Forall₂ (fun r entry => entry.1 ∈ d'.members ∧ entry.1.field = r.field ∧
            entry.2 = r.steps ∧ ∀ s ∈ entry.2, TypeScript.LooksAt entry.1 s r.field.name)
          rules (d'.ruled ⟨"Held", rules⟩) := by
  have hfields : Schema.fieldsOf "Held" (.list (oddFields.map Field.toValue)) = .ok oddFields :=
    Schema.fieldsOf_toValue wellFormed_oddFields
  obtain ⟨e, d, hcreate, hlanguage, hmembers, hname, hconfined⟩ :
      ∃ e, ∃ d : Declaration, create .rust (holding oddFields) {} = .ok e ∧ e.language = .rust ∧
        e.members "Held" oddFields = .ok d.members ∧ '\n' ∉ d.name.toList ∧
          Rust.overruns d = [] :=
    ⟨_, ⟨"Held", .type "", _, none⟩, rfl, rfl, rfl, by decide, by decide +kernel⟩
  obtain ⟨e', d', rules, hcreate', hlanguage', hmembers', hname', hcomments, hrules⟩ :
      ∃ e', ∃ d' : Declaration, ∃ rules, create .typescript (holding oddFields) {} = .ok e' ∧
        e'.language = .typescript ∧ e'.members "Held" oddFields = .ok d'.members ∧
          '\n' ∉ d'.name.toList ∧
          (∀ text ∈ TypeScript.comments d', TypeScript.endsComment text.toList = false) ∧
          (e'.schema.rulesOf "Held" oddFields).outcome = .ok rules :=
    ⟨_, ⟨"Held", .type "", _, none⟩, _, rfl, rfl, rfl, by decide, by decide +kernel, rfl⟩
  obtain ⟨-, hrust, -⟩ := members_keep_names hfields hmembers {}
  obtain ⟨-, -, htypescript⟩ := members_keep_names hfields hmembers' {}
  obtain ⟨-, hproperties, hsteps⟩ := htypescript hlanguage'
  exact ⟨_, e, e', d, d', rules, hfields,
    ⟨hcreate, hmembers, (hrust hlanguage).2 hname hconfined⟩, hcreate', hmembers',
    hproperties hname' hcomments, hrules, hsteps "Held" rules hrules⟩

/-- A field that is described on two lines, the second of which is an attribute. -/
def givenAway : Field where
  name := "a"
  type := .primitive .string
  description := "a text\n#[serde(rename = \"b\")]"
  required := true
  default := .null
  enum := none

/-- The second line of this description names the member. -/
theorem members_lose_name :
    ∃ v e, ∃ d : Declaration, Schema.fieldsOf "Held" v = .ok [givenAway] ∧
      create .rust (holding [givenAway]) {} = .ok e ∧
      e.members "Held" [givenAway] = .ok d.members ∧ d.name = "Held" ∧
      [givenAway].map (·.name) = ["a"] ∧
      Rust.wireNames none (Text.codeLines "//"
          (Draft.render Rust.dialect.indentUnit (Rust.declaration {} d))) = ["b"] := by
  have hfield : givenAway.WellFormed :=
    ⟨by decide, by decide, Descriptor.wellFormed_primitive rfl⟩
  have hwell : WellFormedFields [givenAway] :=
    ⟨List.nodup_singleton _, List.forall_mem_singleton.2 hfield⟩
  exact ⟨_, _, ⟨"Held", .type "", _, none⟩, Schema.fieldsOf_toValue hwell, rfl, rfl, rfl, rfl,
    by decide +kernel⟩

end RpcBindings.Emitter
