import Mathlib.Logic.Relation
import RpcBindings.Proofs.Generation.Capture

/-!
# RpcBindings.Proofs.Generation.Containment

Structures that contain each other by value.  In Rust a member that is declared as a
structure, or as an option of one, holds its value in place, so a structure has a
finite size only if it does not contain itself.  References become such members
wherever they stand outside of arrays.  So structures contain themselves just where
such references lead back to where they start (`generate_containment`).
-/

namespace RpcBindings

open Relation (TransGen)

/-! ## Cycles -/

/-- Cycles are kept along a map that tells apart what is related. -/
theorem exists_transGen_iff {α β : Type} {f : α → β} {R : α → α → Prop} {S : β → β → Prop}
    {P : α → Prop} (hrelated : ∀ a b, R a b → P a ∧ P b)
    (hinj : ∀ a b, P a → P b → f a = f b → a = b)
    (hiff : ∀ x y, S x y ↔ ∃ a b, f a = x ∧ f b = y ∧ R a b) :
    (∃ x, TransGen S x x) ↔ ∃ a, TransGen R a a := by
  have hlower {x y : β} (h : TransGen S x y) :
      ∃ a b, P a ∧ P b ∧ f a = x ∧ f b = y ∧ TransGen R a b := by
    induction h with
    | single hstep =>
        obtain ⟨a, b, rfl, rfl, hab⟩ := (hiff _ _).1 hstep
        exact ⟨a, b, (hrelated a b hab).1, (hrelated a b hab).2, rfl, rfl, .single hab⟩
    | tail _ hstep ih =>
        obtain ⟨a, b, ha, hb, rfl, rfl, hab⟩ := ih
        obtain ⟨c, d, hbc, rfl, hcd⟩ := (hiff _ _).1 hstep
        obtain ⟨hc, hd⟩ := hrelated c d hcd
        obtain rfl := hinj c b hc hb hbc
        exact ⟨a, d, ha, hd, rfl, rfl, hab.tail hcd⟩
  constructor
  · rintro ⟨x, hx⟩
    obtain ⟨a, b, ha, hb, hax, hbx, hab⟩ := hlower hx
    obtain rfl := hinj a b ha hb (hax.trans hbx.symm)
    exact ⟨a, hab⟩
  · rintro ⟨a, ha⟩
    exact ⟨f a, ha.lift f fun a b hab => (hiff _ _).2 ⟨a, b, rfl, rfl, hab⟩⟩

/-! ## What is contained -/

/-- A structure contains another one by value: a member of the one has the other as its
type, or an option of it. -/
def Outline.Contains (outline : Outline) (a b : String) : Prop :=
  ∃ d ∈ outline.declarations, d.name = a ∧ ∃ m ∈ d.members,
    (m.type = b ∨ m.type = "Option<" ++ b ++ ">") ∧ ∃ d' ∈ outline.declarations, d'.name = b

/-- What is declared under a name has a field for a type: a reference to it outside of
arrays, or a text where the type is called like the type of texts. -/
def Schema.Embeds (schema : Schema) (a b : String) : Prop :=
  ∃ subject ∈ schema.subjects, subject.name = a ∧ ∃ field ∈ subject.fields,
    (∃ type ∈ schema.types, type.name = b) ∧
      (field.type = .reference b ∨ field.type = .primitive .string ∧ Name.pascal b = "String")

/-- What is embedded and what embeds it are both declared. -/
theorem Schema.Embeds.declared {schema : Schema} {a b : String} (h : schema.Embeds a b) :
    a ∈ schema.declaredNames ∧ b ∈ schema.declaredNames := by
  obtain ⟨subject, hsubject, rfl, -, -, ⟨type, htype, rfl⟩, -⟩ := h
  exact ⟨name_mem_declaredNames hsubject, name_mem_declaredNames (ofType_mem_subjects htype)⟩

/-! ## Members in place -/

namespace Rust

variable {text b base : String} {field : Field}

/-- Words have no arguments. -/
theorem ne_word (htext : '<' ∈ text.toList) (hb : ∀ c ∈ b.toList, Name.isWordChar c = true) :
    text ≠ b := by
  rintro rfl
  exact absurd (hb _ htext) (by decide)

/-- A sequence is no optional type. -/
theorem vec_ne_option {t : String} : "Vec<" ++ t ≠ "Option<" ++ b := by
  intro h
  have hfirst := congrArg (fun text => text.toList.head?) h
  simp at hfirst

/-- A member holds a value in place just where its field is no array. -/
theorem inPlace_iff (hb : ∀ c ∈ b.toList, Name.isWordChar c = true)
    (hbase : ∀ t, base ≠ "Option<" ++ t ++ ">") :
    (Language.rust.fieldType base field = b ∨
        Language.rust.fieldType base field = "Option<" ++ b ++ ">") ↔
      field.type.items? = none ∧ base = b := by
  have hoption (t : String) : "Option<" ++ t ++ ">" ≠ b := ne_word (by simp) hb
  have hvec (t : String) : "Vec<" ++ t ++ ">" ≠ b := ne_word (by simp) hb
  unfold Language.fieldType
  cases htype : field.type with
  | plain kind target =>
      cases hrequired : field.required with
      | true => simp [Language.around, Descriptor.items?, hbase]
      | false =>
          simp [Language.around, Language.optional, Descriptor.items?, hoption]
  | nested kind target items =>
      cases hrequired : field.required with
      | true => simp [Language.around, Language.sequence, Descriptor.items?, hvec, vec_ne_option]
      | false =>
          simp [Language.around, Language.sequence, Language.optional, Descriptor.items?, hoption,
            hvec]

end Rust

namespace Emitter

variable {schema : Schema} {options : Options} {e : Emitter} {outline : Outline}
  {d : Declaration} {m : Member} {a b base : String}

/-- No base of a type is an option. -/
theorem isBase_ne_option (hbase : TypeSystem.IsBase .rust schema m.field.type base) (t : String) :
    base ≠ "Option<" ++ t ++ ">" := by
  obtain ⟨kind, -, hkind⟩ | ⟨target, type, -, -, hidentifier⟩ := hbase
  · have hfirst : ∀ entry ∈ Language.rust.primitives, entry.2.toList.head? ≠ some 'O' := by decide
    obtain ⟨before, after, hentries, -⟩ := List.lookup_eq_some_iff.1 hkind
    rintro rfl
    exact hfirst (kind, "Option<" ++ t ++ ">") (by simp [hentries]) (by simp)
  · rw [← Language.casing_of_identifier hidentifier]
    refine (Rust.ne_word (by simp) fun c hc => ?_).symm
    exact Language.isWordChar_of_declaration hc

/-- An identifier that stands in place is that of a declared type, or the type of texts. -/
theorem type_of_isBase (hbase : TypeSystem.IsBase .rust schema m.field.type base)
    (hitems : m.field.type.items? = none) (hidentifier : Name.pascal a = base) :
    (∃ type ∈ schema.types, m.field.type = .reference type.name ∧ Name.pascal type.name = base) ∨
      m.field.type = .primitive .string ∧ base = "String" := by
  have hcore : m.field.type.core = m.field.type := by
    cases htype : m.field.type with
    | plain kind target => rfl
    | nested kind target items => rw [htype] at hitems; contradiction
  rw [TypeSystem.IsBase, hcore] at hbase
  obtain ⟨kind, htype, hkind⟩ | ⟨target, type, htype, hfound, hbase⟩ := hbase
  · have htexts : ∀ entry ∈ Language.rust.primitives,
        Name.isForeign entry.2 = true ∨ entry = (.string, "String") := by decide
    obtain ⟨before, after, hentries, -⟩ := List.lookup_eq_some_iff.1 hkind
    obtain hforeign | hstring := htexts (kind, base) (by simp [hentries])
    · exact absurd hidentifier (Name.pascal_ne_of_isForeign hforeign a)
    · obtain ⟨rfl, rfl⟩ := Prod.mk.inj hstring
      exact .inr ⟨htype, rfl⟩
  · obtain ⟨hmem, rfl⟩ := Schema.mem_types_of_findType? hfound
    exact .inl ⟨type, hmem, htype, Language.casing_of_identifier hbase⟩

/-- The type of texts stands at the base of texts. -/
theorem base_eq_string (hbase : TypeSystem.IsBase .rust schema (.primitive .string) base) :
    base = "String" := by
  obtain ⟨kind, hcore, hkind⟩ | ⟨target, type, hcore, -⟩ := hbase
  · cases hcore
    exact (Option.some.inj hkind).symm
  · cases hcore

section

variable (hcreate : create .rust schema options = .ok e)
  (hdeclares : List.Forall₂ e.Declares schema.subjects outline.declarations)
  (hshape : ∀ fields ∈ schema.fieldLists, ∀ field ∈ fields, field.type.HasShape)
include hcreate hdeclares hshape

/-- Structures contain what their fields refer to outside of arrays. -/
theorem contains_iff :
    outline.Contains a b ↔
      ∃ name other, Name.pascal name = a ∧ Name.pascal other = b ∧ schema.Embeds name other := by
  have hname {subject : Subject} {d : Declaration} (h : e.Declares subject d) :
      Name.pascal subject.name = d.name :=
    Language.casing_of_identifier (identifier_of_declarationName hcreate h.name)
  constructor
  · rintro ⟨d, hd, rfl, m, hm, htype, d', hd', rfl⟩
    obtain ⟨subject, hsubject, hof⟩ := exists_left_of_forall₂ hdeclares hd
    obtain ⟨subject', hsubject', hof'⟩ := exists_left_of_forall₂ hdeclares hd'
    obtain ⟨base, hbase, hmember⟩ := base_of_member hcreate hdeclares hshape hd hm
    rw [hmember, Rust.inPlace_iff (hof'.isWordChar hcreate) (isBase_ne_option hbase)] at htype
    obtain ⟨hitems, rfl⟩ := htype
    have hfield := (hof.hasMember hm).1
    obtain ⟨type, htype, hreference, hpascal⟩ | ⟨htext, hstring⟩ :=
      type_of_isBase hbase hitems (hname hof')
    · exact ⟨subject.name, type.name, hname hof, hpascal, subject, hsubject, rfl, m.field, hfield,
        ⟨type, htype, rfl⟩, .inl hreference⟩
    · have hwritten : d'.name ∈ Language.rust.writtenNames := by
        rw [hstring]
        decide
      obtain ⟨type, htype, rfl, -, -⟩ :=
        hof'.type_of_written (.inl rfl) hcreate hsubject' hwritten
      have hpascal := hname hof'
      exact ⟨subject.name, type.name, hname hof, hpascal, subject, hsubject, rfl, m.field,
        hfield, ⟨type, htype, rfl⟩, .inr ⟨htext, hpascal.trans hstring⟩⟩
  · rintro ⟨-, -, rfl, rfl, subject, hsubject, rfl, field, hfield, ⟨type, htype, rfl⟩, hembeds⟩
    obtain ⟨d, hd, hof⟩ := exists_right_of_forall₂ hdeclares hsubject
    obtain ⟨d', hd', hdeclared, hidentifier⟩ :=
      exists_declared_type (.inl rfl) hcreate hdeclares htype
    obtain ⟨m, hm, hmember⟩ := exists_right_of_forall₂ (members_eq_ok hof.members) hfield
    obtain rfl := hmember.source
    obtain ⟨base, hbase, hexpression⟩ := base_of_member hcreate hdeclares hshape hd hm
    have hinPlace : m.field.type.items? = none ∧ base = d'.name := by
      obtain hreference | ⟨htext, hstring⟩ := hembeds
      · rw [hreference] at hbase ⊢
        exact ⟨rfl, hbase.eq_of_reference hidentifier⟩
      · rw [htext] at hbase ⊢
        exact ⟨rfl, (base_eq_string hbase).trans (hdeclared.trans hstring).symm⟩
    refine ⟨d, hd, (hname hof).symm, m, hm, ?_, d', hd', hdeclared⟩
    rw [hexpression, ← hdeclared, Rust.inPlace_iff ?_ (isBase_ne_option hbase)]
    · exact hinPlace
    · rw [← Language.casing_of_identifier hidentifier]
      exact fun c hc => Language.isWordChar_of_declaration hc

end

end Emitter

/-! ## Documents -/

namespace Schema

variable {schema : Schema} {settings : Settings} {target : Target} {document : String}

/-- **Structures contain themselves just where references lead back.**  In a Rust document
a structure contains another one by value if and only if it has a field for the type of
this one outside of arrays; so containment has a cycle if and only if these fields have
one, and nothing is put in between. -/
theorem generate_containment {root : Value} (hread : ofValue root = .ok schema)
    (htarget : Target.ofName? settings.target = some target) (htypes : target.includeTypes = true)
    (hlanguage : target.language = .rust)
    (h : (schema.generate settings).outcome = .ok document) :
    ∃ outline,
      document = Draft.render target.language.dialect.indentUnit
        (target.language.dialect.draft (settings.options schema target) schema outline) ∧
      (∀ a b, outline.Contains a b ↔
        ∃ name other, Name.pascal name = a ∧ Name.pascal other = b ∧ schema.Embeds name other) ∧
      ((∃ a, TransGen outline.Contains a a) ↔ ∃ name, TransGen schema.Embeds name name) := by
  have hshape := (wellFormed_of_ofValue hread).hasShape
  obtain ⟨-, e, outline, hcreate, houtline, rfl⟩ := (generate_eq_ok_iff htarget).1 h
  have hdeclares := Emitter.declares_of_create hcreate htypes houtline
  rw [hlanguage] at hcreate
  have hcontains (a b : String) := Emitter.contains_iff (a := a) (b := b) hcreate hdeclares hshape
  refine ⟨outline, rfl, hcontains, ?_⟩
  refine exists_transGen_iff (P := (· ∈ schema.declaredNames)) (fun _ _ h => h.declared) ?_
    hcontains
  intro name other hname hother heq
  obtain ⟨identifier, -, hdeclared⟩ := Emitter.owns_declaration hcreate hname
  obtain ⟨identifier', -, hdeclared'⟩ := Emitter.owns_declaration hcreate hother
  have hpascal : Name.pascal name = identifier := Language.casing_of_identifier
    (Emitter.identifier_of_declarationName hcreate hdeclared)
  have hpascal' : Name.pascal other = identifier' := Language.casing_of_identifier
    (Emitter.identifier_of_declarationName hcreate hdeclared')
  obtain rfl : identifier = identifier' := hpascal.symm.trans (heq.trans hpascal')
  exact Emitter.declarationName_inj hcreate hname hother hdeclared hdeclared'

/-- A schema with a chain of nodes. -/
def chain : Schema where
  name := ""
  description := ""
  types := [
    { name := "node"
      description := ""
      properties := [
        { name := "next", type := .reference "node", description := "", required := false
          default := .null, enum := none }] }]
  methods := []
  goTags := []
  typeNames_nodup := List.nodup_singleton _
  methodNames_nodup := List.nodup_nil

theorem wellFormed_chain : chain.WellFormed where
  name := Text.isTrimmed_empty
  description := Text.isTrimmed_empty
  typeNames := chain.typeNames_nodup
  types type htype := by
    obtain rfl := List.mem_singleton.1 htype
    refine ⟨by decide, Text.isTrimmed_empty, List.nodup_singleton _, fun field hfield => ?_⟩
    obtain rfl := List.mem_singleton.1 hfield
    exact ⟨by decide, Text.isTrimmed_empty, Descriptor.wellFormed_reference (by decide)⟩
  methodNames := chain.methodNames_nodup
  methods := by simp [chain]
  goTags := by simp [chain]

/-- What is declared for it in Rust. -/
def chainOutline : Outline where
  declarations := [
    { name := "Node"
      role := .type ""
      members := [
        { field := { name := "next", type := .reference "node", description := "",
                     required := false, default := .null, enum := none }
          identifier := "next"
          type := "Option<Node>"
          summary := "next is the next field." }]
      rules := none }]
  stubs := []

def chainDocument : String :=
  "\n".intercalate ["// " ++ generatedNotice, "", "use serde::\x7bDeserialize, Serialize\x7d;", "",
    "// Node", "#[derive(Serialize, Deserialize, Debug, Clone)]", "pub struct Node \x7b",
    "    // next is the next field.", "    pub next: Option<Node>,", "\x7d", ""]

theorem chain_generate_containment :
    (∃ root, ofValue root = .ok chain) ∧
      (chain.generate plainTypes).outcome = .ok chainDocument ∧ ∃ outline,
        chainDocument = Draft.render Target.rustTypes.language.dialect.indentUnit
          (Target.rustTypes.language.dialect.draft
            (plainTypes.options chain Target.rustTypes) chain outline) ∧
        (∀ a b, outline.Contains a b ↔
          ∃ name other, Name.pascal name = a ∧ Name.pascal other = b ∧ chain.Embeds name other) ∧
        ((∃ a, TransGen outline.Contains a a) ↔ ∃ name, TransGen chain.Embeds name name) := by
  have hread : ofValue chain.toValue = .ok chain := ofValue_toValue wellFormed_chain
  have hdocument : (chain.generate plainTypes).outcome = .ok chainDocument :=
    (generate_eq_ok_iff target_plainTypes).2 ⟨by decide, _, _, rfl, rfl, by decide +kernel⟩
  exact ⟨⟨_, hread⟩, hdocument, generate_containment hread target_plainTypes rfl rfl hdocument⟩

/-- A structure contains itself in the document of a chain. -/
theorem chain_contains_itself :
    (∃ root, ofValue root = .ok chain) ∧
      (chain.generate plainTypes).outcome = .ok chainDocument ∧
      (∃ e, Emitter.create .rust chain (plainTypes.options chain Target.rustTypes) = .ok e ∧
        e.outline.outcome = .ok chainOutline) ∧
      TransGen chainOutline.Contains "Node" "Node" := by
  refine ⟨⟨_, ofValue_toValue wellFormed_chain⟩, ?_, ⟨_, rfl, ?_⟩, .single ?_⟩
  · exact (generate_eq_ok_iff target_plainTypes).2 ⟨by decide, _, _, rfl, rfl, by decide +kernel⟩
  · rfl
  · exact ⟨_, List.mem_singleton_self _, rfl, _, List.mem_singleton_self _, .inr (by decide), _,
      List.mem_singleton_self _, rfl⟩

end Schema

end RpcBindings
