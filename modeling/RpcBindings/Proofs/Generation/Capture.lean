import RpcBindings.Proofs.Generation.Comments
import RpcBindings.Proofs.Name.Composition
import RpcBindings.Proofs.Typing.Vocabulary

/-!
# RpcBindings.Proofs.Generation.Capture

Declarations that are called like a type of the language.  The scope of declarations
reserves what a document declares besides the schema, but not what its type
expressions name, so a declared type may take such a name.  It does so if and only if
its name has the same words, and inputs and outputs never do (`generate_capture`).
-/

namespace RpcBindings

/-! ## Captured names -/

/-- What the names in the types of an outline stand for. -/
structure Outline.Names (schema : Schema) (language : Language) (outline : Outline) : Prop where
  /-- The names in the type of a member are those of the language or are declared. -/
  members : ∀ d ∈ outline.declarations, ∀ m ∈ d.members, ∀ name ∈ Text.typeNames m.type,
    name ∈ language.writtenNames ∨ ∃ d' ∈ outline.declarations, d'.name = name
  /-- A name of the language is declared just for a type whose name has the same words. -/
  captured : ∀ name ∈ language.writtenNames,
    (∃ d ∈ outline.declarations, d.name = name) ↔
      Name.pascal name = name ∧
        ∃ type ∈ schema.types, Name.lowerWords type.name = Name.lowerWords name
  /-- No input and no output is called like a type of the language. -/
  types : ∀ d ∈ outline.declarations, d.name ∈ language.writtenNames →
    ∃ description, d.role = .type description
  /-- A reference and a primitive kind have the same type just in this case. -/
  references : ∀ type ∈ schema.types, ∀ kind, kind.isPrimitive = true → ∀ owner,
    language.typeSystem.express schema owner (.reference type.name) =
        language.typeSystem.express schema owner (.primitive kind) ↔
      ∃ name, language.primitives.lookup kind = some name ∧ Name.pascal name = name ∧
        Name.lowerWords type.name = Name.lowerWords name

namespace Emitter

variable {language : Language} {schema : Schema} {options : Options} {e : Emitter}
  {outline : Outline} {subject : Subject} {d : Declaration} {name identifier : String}

section

variable (hlanguage : language = .rust ∨ language = .typescript)
include hlanguage

theorem language_ne_go : language ≠ .go := by
  obtain rfl | rfl := hlanguage <;> decide

/-- A declaration that is called like a type of the language is that of a type. -/
theorem Declares.type_of_written (hcreate : create language schema options = .ok e)
    (hsubject : subject ∈ schema.subjects) (h : e.Declares subject d)
    (hname : d.name ∈ language.writtenNames) :
    ∃ type ∈ schema.types, subject = .ofType type ∧
      Name.pascal d.name = d.name ∧ Name.lowerWords type.name = Name.lowerWords d.name := by
  have hcasing := Language.casing_of_identifier (identifier_of_declarationName hcreate h.name)
  rw [Language.casing_declaration (language_ne_go hlanguage)] at hcasing
  have htold := List.all_eq_true.1 (Language.isTold_writtenNames hlanguage) _ hname
  obtain ⟨hself, hwords⟩ := (Name.pascal_eq_iff_of_isTold htold).1 hcasing
  have hlast := List.all_eq_true.1 (Language.getLast?_writtenNames hlanguage) _ hname
  rw [← hwords, Bool.and_eq_true, bne_iff_ne, bne_iff_ne] at hlast
  obtain ⟨type, htype, rfl⟩ | ⟨method, -, rfl | rfl⟩ := Schema.mem_subjects hsubject
  · exact ⟨type, htype, rfl, hself, hwords⟩
  · refine absurd ?_ hlast.1
    rw [Subject.ofInput, Method.lowerWords_inputName, List.getLast?_concat]
  · refine absurd ?_ hlast.2
    rw [Subject.ofOutput, Method.lowerWords_outputName, List.getLast?_concat]

/-- Names in the types of members are declared or those of the language. -/
theorem mem_typeNames_member {m : Member} (hclosed : outline.Closed schema language)
    (hwords : ∀ d ∈ outline.declarations,
      d.name ≠ "" ∧ ∀ c ∈ d.name.toList, Name.isWordChar c = true)
    (hd : d ∈ outline.declarations) (hm : m ∈ d.members) (hname : name ∈ Text.typeNames m.type) :
    name ∈ language.writtenNames ∨ ∃ d' ∈ outline.declarations, d'.name = name := by
  obtain ⟨base, htype, hbase⟩ := hclosed.members d hd m hm
  rw [htype] at hname
  obtain hname | hname := Language.mem_typeNames_fieldType hlanguage hname
  · exact .inl hname
  obtain ⟨kind, -, hlookup⟩ | ⟨type, -, -, d', hd', -, rfl⟩ := hbase
  · exact .inl (Language.mem_writtenNames_of_primitive hlookup hname)
  · rw [Text.typeNames_word (hwords d' hd').1 (hwords d' hd').2, List.mem_singleton] at hname
    exact .inr ⟨d', hd', hname.symm⟩

/-- A type is declared under its name in pascal case. -/
theorem exists_declared_type (hcreate : create language schema options = .ok e)
    (hdeclares : List.Forall₂ e.Declares schema.subjects outline.declarations)
    {type : ObjectType} (htype : type ∈ schema.types) :
    ∃ d ∈ outline.declarations, d.name = Name.pascal type.name ∧
      language.identifier .declaration type.name = .ok d.name := by
  obtain ⟨d, hd, -, hidentifier, -⟩ := exists_standsFor hcreate hdeclares htype
  have hcasing := Language.casing_of_identifier hidentifier
  rw [Language.casing_declaration (language_ne_go hlanguage)] at hcasing
  exact ⟨d, hd, hcasing.symm, hidentifier⟩

/-- A reference and a primitive kind have the same type just where the type has the
words of the primitive one. -/
theorem express_reference_eq_primitive_iff {type : ObjectType} {kind : Kind} {owner : Option String}
    (htype : type ∈ schema.types)
    (hidentifier : language.identifier .declaration type.name = .ok (Name.pascal type.name))
    (hkind : kind.isPrimitive = true) :
    language.typeSystem.express schema owner (.reference type.name) =
        language.typeSystem.express schema owner (.primitive kind) ↔
      ∃ name, language.primitives.lookup kind = some name ∧ Name.pascal name = name ∧
        Name.lowerWords type.name = Name.lowerWords name := by
  obtain ⟨found, hfound⟩ : ∃ found, schema.findType? type.name = some found :=
    Option.isSome_iff_exists.1 (List.find?_isSome.2 ⟨type, htype, beq_self_eq_true _⟩)
  obtain ⟨-, hname⟩ := Schema.mem_types_of_findType? hfound
  obtain ⟨text, htext⟩ := Option.isSome_iff_exists.1 (TypeSystem.lookup_primitives language hkind)
  obtain ⟨before, after, hentries, -⟩ := List.lookup_eq_some_iff.1 htext
  have htold : Name.isTold text = true :=
    List.all_eq_true.1 (Language.isTold_primitives hlanguage) text (by simp [hentries])
  rw [← hname] at hidentifier
  rw [TypeSystem.express_reference hfound hidentifier,
    TypeSystem.express_primitive hkind htext, Except.ok.injEq,
    Name.pascal_eq_iff_of_isTold htold, htext, hname]
  simp

end

end Emitter

/-! ## Documents -/

namespace Schema

variable {schema : Schema} {settings : Settings} {target : Target} {document : String}

/-- **Types capture names of the language by having their words.**  In a document in Rust
or TypeScript the names in the types of members are those of the language or are
declared, and a name of the language is declared if and only if a type of the schema is
called by its words; then, and only then, are references to this type written like a
primitive kind. -/
theorem generate_capture {root : Value} (hread : ofValue root = .ok schema)
    (htarget : Target.ofName? settings.target = some target) (htypes : target.includeTypes = true)
    (hlanguage : target.language = .rust ∨ target.language = .typescript)
    (h : (schema.generate settings).outcome = .ok document) :
    ∃ outline,
      document = Draft.render target.language.dialect.indentUnit
        (target.language.dialect.draft (settings.options schema target) schema outline) ∧
      outline.Names schema target.language := by
  have hshape := (wellFormed_of_ofValue hread).hasShape
  obtain ⟨-, e, outline, hcreate, houtline, rfl⟩ := (generate_eq_ok_iff htarget).1 h
  obtain ⟨hclosed, hwords⟩ := Emitter.closed_outline hcreate htypes houtline hshape
  have hdeclares := Emitter.declares_of_create hcreate htypes houtline
  have hnonempty : ∀ d ∈ outline.declarations, d.name ≠ "" := by
    intro d hd
    obtain ⟨subject, -, hof⟩ := exists_left_of_forall₂ hdeclares hd
    exact (Language.identifier_eq_ok_iff.1
      (Emitter.identifier_of_declarationName hcreate hof.name)).2
  refine ⟨outline, rfl, ⟨?_, ?_, ?_, ?_⟩⟩
  · exact fun d hd m hm name => Emitter.mem_typeNames_member hlanguage hclosed
      (fun d hd => ⟨hnonempty d hd, hwords d hd⟩) hd hm
  · intro name hname
    constructor
    · rintro ⟨d, hd, rfl⟩
      obtain ⟨subject, hsubject, hof⟩ := exists_left_of_forall₂ hdeclares hd
      obtain ⟨type, htype, -, hself, hsame⟩ :=
        hof.type_of_written hlanguage hcreate hsubject hname
      exact ⟨hself, type, htype, hsame⟩
    · rintro ⟨hself, type, htype, hsame⟩
      obtain ⟨d, hd, hdeclared, -⟩ := Emitter.exists_declared_type hlanguage hcreate hdeclares htype
      exact ⟨d, hd, by rw [hdeclared, Name.pascal_eq_of_lowerWords hsame, hself]⟩
  · intro d hd hname
    obtain ⟨subject, hsubject, hof⟩ := exists_left_of_forall₂ hdeclares hd
    obtain ⟨type, -, rfl, -⟩ := hof.type_of_written hlanguage hcreate hsubject hname
    exact ⟨_, hof.role⟩
  · intro type htype kind hkind owner
    obtain ⟨d, -, hdeclared, hidentifier⟩ :=
      Emitter.exists_declared_type hlanguage hcreate hdeclares htype
    rw [hdeclared] at hidentifier
    exact Emitter.express_reference_eq_primitive_iff hlanguage htype hidentifier hkind

/-- A schema with types that are called like those in their fields. -/
def captives : Schema where
  name := ""
  description := ""
  types := [
    { name := "string"
      description := ""
      properties := [
        { name := "a", type := .primitive .string, description := "", required := true
          default := .null, enum := none }] },
    { name := "utc"
      description := ""
      properties := [
        { name := "at", type := .primitive .timestamp, description := "", required := true
          default := .null, enum := none }] }]
  methods := []
  goTags := []
  typeNames_nodup := by decide
  methodNames_nodup := List.nodup_nil

theorem wellFormed_captives : captives.WellFormed where
  name := Text.isTrimmed_empty
  description := Text.isTrimmed_empty
  typeNames := captives.typeNames_nodup
  types type htype := by
    simp only [captives, List.mem_cons, List.not_mem_nil, or_false] at htype
    obtain rfl | rfl := htype
    all_goals
      refine ⟨by decide, Text.isTrimmed_empty, List.nodup_singleton _, fun field hfield => ?_⟩
      obtain rfl := List.mem_singleton.1 hfield
      exact ⟨by decide, Text.isTrimmed_empty, Descriptor.wellFormed_primitive rfl⟩
  methodNames := captives.methodNames_nodup
  methods := by simp [captives]
  goTags := by simp [captives]

/-- Their structures in Rust.  What a `String` contains is a `String` again, and `Utc` is
declared besides what the document imports under this name. -/
def captivesLines : List String :=
  ["// " ++ generatedNotice, "", "use chrono::\x7bDateTime, Utc\x7d;",
    "use serde::\x7bDeserialize, Serialize\x7d;", "",
    "// String", "#[derive(Serialize, Deserialize, Debug, Clone)]", "pub struct String \x7b",
    "    // a is the a field.", "    pub a: String,", "\x7d", "",
    "// Utc", "#[derive(Serialize, Deserialize, Debug, Clone)]", "pub struct Utc \x7b",
    "    // at is the at field.", "    pub at: DateTime<Utc>,", "\x7d", ""]

def captivesDocument : String := "\n".intercalate captivesLines

theorem split_captivesDocument : Text.split '\n' captivesDocument = captivesLines := by
  have hfeed : "\n" = String.singleton '\n' := rfl
  have hlines : ∀ line ∈ captivesLines, '\n' ∉ line.toList := by decide
  rw [captivesDocument, hfeed, Text.split_intercalate (by simp [captivesLines]),
    List.flatMap_congr fun line hline => Text.split_of_notMem (hlines line hline)]
  exact List.flatMap_singleton' captivesLines

theorem captives_generate_capture :
    (∃ root, ofValue root = .ok captives) ∧
      (captives.generate plainTypes).outcome = .ok captivesDocument ∧ ∃ outline,
        captivesDocument = Draft.render Target.rustTypes.language.dialect.indentUnit
          (Target.rustTypes.language.dialect.draft
            (plainTypes.options captives Target.rustTypes) captives outline) ∧
        outline.Names captives Target.rustTypes.language := by
  have hread : ofValue captives.toValue = .ok captives := ofValue_toValue wellFormed_captives
  have hdocument : (captives.generate plainTypes).outcome = .ok captivesDocument :=
    (generate_eq_ok_iff target_plainTypes).2 ⟨by decide, _, _, rfl, rfl, by decide +kernel⟩
  exact ⟨⟨_, hread⟩, hdocument,
    generate_capture hread target_plainTypes rfl (.inl rfl) hdocument⟩

/-- Structures are called like types of the language, and references to one of them are
written like that type. -/
theorem captives_declared :
    (∃ root, ofValue root = .ok captives) ∧
      (captives.generate plainTypes).outcome = .ok captivesDocument ∧
      (∀ name ∈ ["String", "Utc"], name ∈ Language.rust.writtenNames ∧
        Text.HasLines captivesDocument (Language.rust.structureLines name)) ∧
      Language.rust.typeSystem.express captives none (.reference "string") =
        Language.rust.typeSystem.express captives none (.primitive .string) := by
  refine ⟨⟨_, ofValue_toValue wellFormed_captives⟩, ?_, ?_, by decide⟩
  · exact (generate_eq_ok_iff target_plainTypes).2 ⟨by decide, _, _, rfl, rfl, by decide +kernel⟩
  · unfold Text.HasLines
    rw [split_captivesDocument]
    decide

end Schema

end RpcBindings
