import RpcBindings.Proofs.Generation.Comments
import RpcBindings.Proofs.Generation.Declared
import RpcBindings.Proofs.Generation.Growth
import RpcBindings.Proofs.Target.Imports

/-!
# RpcBindings.Proofs.Generation.Imports

Headers and what they are for.  The header of a document is decided by the kinds
that occur in the schema, before anything else of the document is written.  It
imports just what the types of its members need, in whatever depth of arrays and
whatever the types of the schema are called, and it defines the instant that
validations compare with wherever they do.  Nothing else is imported in Go and Rust,
but for what strays from texts that go on behind a line feed (`generate_imports`).
-/

namespace RpcBindings

/-! ## Headers -/

/-- A text begins with some lines. -/
def Text.Begins (text : String) (lines : List String) : Prop :=
  ∃ rest, text = String.join (lines.map (· ++ "\n")) ++ rest

/-- A text begins with what is drafted in front, up to a line that is not empty. -/
theorem Draft.begins_render {unit : String} {lines : List String} {front : Draft}
    (hfront : front.Spaced unit) (hlines : front.spread unit = lines)
    (hlast : ∃ line ∈ lines.getLast?, line ≠ "") (more : Draft) :
    Text.Begins (render unit (front ++ more)) lines := by
  subst hlines
  have hkept := dropEmptyEnd_eq_self hlast
  have hne : dropEmptyEnd (Draft.lines unit front) ≠ [] := by
    obtain ⟨line, hmem, -⟩ := hlast
    rw [hfront.lines_eq, hkept]
    exact List.ne_nil_of_mem (List.mem_of_getLast? hmem)
  obtain ⟨rest, hrest⟩ := prefix_render hne more
  exact ⟨rest, by rw [hrest, hfront.render_eq hlast]⟩

namespace Language

/-- The lines that a document begins with, up to the end of its imports: with the clock, and with
maps, or without. -/
def importLines (options : Options) (clock maps : Bool) : Language → List String
  | .go =>
    ["// " ++ generatedNotice, "", "package " ++ options.package, "", "import (", "\t\"fmt\""] ++
      (if clock then ["\t\"time\""] else []) ++ [")"]
  | .rust =>
    ["// " ++ generatedNotice, ""] ++
      (if maps then ["use std::collections::HashMap;", ""] else []) ++
      (if clock then ["use chrono::\x7bDateTime, Utc\x7d;"] else []) ++
      ["use serde::\x7bDeserialize, Serialize\x7d;"]
  | .typescript =>
    ["// " ++ generatedNotice] ++
      (if options.includeClient then
        ["", "import fetch from " ++ Literal.singleQuoted options.fetchLibrary] else []) ++
      (if clock then "" :: TypeScript.zeroInstant else [])
  | .ruby => ["# " ++ generatedNotice]

/-- The draft of these lines. -/
def importDraft (options : Options) (clock maps : Bool) : Language → Draft
  | .go =>
    [.line 0 ("// " ++ generatedNotice), Draft.emptyLine,
     .line 0 ("package " ++ options.package), Draft.emptyLine,
     .line 0 "import (", .line 1 "\"fmt\""] ++
    (if clock then [.line 1 "\"time\""] else []) ++ [.line 0 ")"]
  | .rust =>
    [.line 0 ("// " ++ generatedNotice), Draft.emptyLine] ++
    (if maps then [.line 0 "use std::collections::HashMap;", Draft.emptyLine] else []) ++
    (if clock then [.line 0 "use chrono::\x7bDateTime, Utc\x7d;"] else []) ++
    [.line 0 "use serde::\x7bDeserialize, Serialize\x7d;"]
  | .typescript =>
    [.line 0 ("// " ++ generatedNotice)] ++
    (if options.includeClient then
      [Draft.emptyLine, .line 0 ("import fetch from " ++ Literal.singleQuoted options.fetchLibrary)]
     else []) ++
    (if clock then Draft.emptyLine :: Draft.ready TypeScript.zeroInstant else [])
  | .ruby => [.line 0 ("# " ++ generatedNotice)]

variable {language : Language} {options : Options} {schema : Schema} {outline : Outline}

/-- The imports are written line by line. -/
theorem onlyLines_importDraft (language : Language) (options : Options) (clock maps : Bool) :
    (language.importDraft options clock maps).OnlyLines := by
  cases language <;> cases clock <;> cases maps <;> cases hclient : options.includeClient <;>
    simp [importDraft, Draft.emptyLine, hclient]

/-- The imports have the lines that are named for them. -/
theorem spread_importDraft (language : Language) (options : Options) (clock maps : Bool) :
    (language.importDraft options clock maps).spread language.dialect.indentUnit =
      language.importLines options clock maps := by
  have hindent : ∀ text, text ≠ "" → Stroke.textOf "\t" 1 text = "\t" ++ text := by
    intro text htext
    rw [Stroke.textOf, if_neg (by simpa using htext)]
    rfl
  cases language <;> cases clock <;> cases maps <;> cases hclient : options.includeClient <;>
    simp [importDraft, importLines, Draft.emptyLine, Draft.spread, Stroke.spread,
      Stroke.textOf_zero, hclient, Draft.ready, dialect, Go.dialect, hindent,
      TypeScript.zeroInstant]

/-- The imports end in a line that is not empty. -/
theorem exists_getLast?_importLines (language : Language) (options : Options) (clock maps : Bool) :
    ∃ line ∈ (language.importLines options clock maps).getLast?, line ≠ "" := by
  cases language with
  | go =>
      rw [importLines]
      exact ⟨_, List.getLast?_concat, by decide⟩
  | rust =>
      rw [importLines]
      exact ⟨_, List.getLast?_concat, by decide⟩
  | typescript =>
      cases clock <;> cases hclient : options.includeClient <;>
        simp [importLines, hclient, TypeScript.zeroInstant]
  | ruby => exact ⟨_, rfl, by decide⟩

/-- Whether there is something about instants in a header. -/
def hasClock (options : Options) (schema : Schema) : Language → Bool
  | .typescript => options.validate && schema.usesKind .timestamp
  | _ => schema.usesKind .timestamp

/-- A header begins with its imports. -/
theorem importDraft_prefix_header (language : Language) (schema : Schema)
    (htypes : options.includeTypes = true) :
    language.importDraft options (language.hasClock options schema) (schema.usesKind .object) <+:
      language.dialect.header options schema := by
  cases language with
  | go =>
      refine ⟨Draft.emptyLine :: Draft.ready Go.helpers ++ [Draft.emptyLine], ?_⟩
      cases hclock : schema.usesKind .timestamp <;>
        simp [importDraft, hasClock, dialect, Go.dialect, Go.header, hclock]
  | rust =>
      refine ⟨[Draft.emptyLine], ?_⟩
      cases hclock : schema.usesKind .timestamp <;>
        simp [importDraft, hasClock, dialect, Rust.dialect, Rust.header, htypes, hclock]
  | typescript =>
      refine ⟨[Draft.emptyLine], ?_⟩
      cases hclock : options.validate && schema.usesKind .timestamp <;>
        cases hclient : options.includeClient <;>
          simp [importDraft, hasClock, dialect, TypeScript.dialect, TypeScript.header, hclock,
            hclient]
  | ruby => exact ⟨[Draft.emptyLine], rfl⟩

/-- A document begins with the lines of its imports. -/
theorem begins_draft (htypes : options.includeTypes = true) :
    Text.Begins
      (Draft.render language.dialect.indentUnit (language.dialect.draft options schema outline))
      (language.importLines options (language.hasClock options schema)
        (schema.usesKind .object)) := by
  obtain ⟨more, hmore⟩ := importDraft_prefix_header language schema htypes
  rw [Dialect.draft, ← hmore, List.append_assoc, List.append_assoc]
  exact Draft.begins_render (onlyLines_importDraft _ _ _ _).spaced (spread_importDraft _ _ _ _)
    (exists_getLast?_importLines _ _ _ _) _

end Language

/-! ## Uses -/

/-- A piece of text occurs in the type of a member. -/
def Outline.Mentions (outline : Outline) (piece : String) : Prop :=
  ∃ d ∈ outline.declarations, ∃ m ∈ d.members, piece.toList <:+: m.type.toList

/-- Some validation checks that a required instant is there. -/
def Outline.ChecksInstant (outline : Outline) : Prop :=
  ∃ d ∈ outline.declarations, ∃ plan, d.rules = some plan ∧
    ∃ entry ∈ d.ruled plan, Step.required ∈ entry.2 ∧ entry.1.field.type.kind = .timestamp

/-- A descriptor mentions its own kind. -/
theorem Descriptor.mentions_kind (d : Descriptor) : d.mentions d.kind = true := by
  cases d <;> simp [mentions, layers, kind]

/-- A kind is used exactly where the descriptor of a field mentions it. -/
theorem Schema.usesKind_iff {schema : Schema} {kind : Kind} :
    schema.usesKind kind = true ↔
      ∃ fields ∈ schema.fieldLists, ∃ field ∈ fields, field.type.mentions kind = true := by
  simp [usesKind]

/-- Every list of fields belongs to something that is declared, if there are fields in it. -/
theorem Schema.exists_subject_of_fieldLists {schema : Schema} {fields : List Field} {field : Field}
    (hfields : fields ∈ schema.fieldLists) (hfield : field ∈ fields) :
    ∃ subject ∈ schema.subjects, subject.fields = fields := by
  have hne : fields.isEmpty = false := by
    rw [List.isEmpty_eq_false_iff]
    exact List.ne_nil_of_mem hfield
  simp only [fieldLists, List.mem_append, List.mem_map, List.mem_flatMap, List.mem_cons,
    List.not_mem_nil, or_false] at hfields
  simp only [subjects, List.mem_append, List.mem_map, List.mem_flatMap]
  obtain ⟨type, htype, rfl⟩ | ⟨method, hmethod, rfl | rfl⟩ := hfields
  · exact ⟨.ofType type, .inl ⟨type, htype, rfl⟩, rfl⟩
  · exact ⟨.ofInput method, .inr ⟨method, hmethod, by simp [Subject.ofMethod, hne]⟩, rfl⟩
  · exact ⟨.ofOutput method, .inr ⟨method, hmethod, by simp [Subject.ofMethod, hne]⟩, rfl⟩

namespace Emitter

variable {language : Language} {schema : Schema} {options : Options} {e : Emitter}
  {outline : Outline} {kind : Kind} {mark : String} {first sign : Char}

section

variable (hcreate : create language schema options = .ok e)
  (hdeclares : List.Forall₂ e.Declares schema.subjects outline.declarations)
  (hshape : ∀ fields ∈ schema.fieldLists, ∀ field ∈ fields, field.type.HasShape)

include hdeclares

/-- The fields of a schema are those of the members. -/
theorem exists_member_iff {P : Field → Prop} :
    (∃ fields ∈ schema.fieldLists, ∃ field ∈ fields, P field) ↔
      ∃ d ∈ outline.declarations, ∃ m ∈ d.members, P m.field := by
  constructor
  · rintro ⟨fields, hfields, field, hfield, hP⟩
    obtain ⟨subject, hsubject, rfl⟩ := Schema.exists_subject_of_fieldLists hfields hfield
    obtain ⟨d, hd, hof⟩ := exists_right_of_forall₂ hdeclares hsubject
    rw [← map_field_of_members hof.members] at hfield
    obtain ⟨m, hm, rfl⟩ := List.mem_map.1 hfield
    exact ⟨d, hd, m, hm, hP⟩
  · rintro ⟨d, hd, m, hm, hP⟩
    obtain ⟨subject, hsubject, hof⟩ := exists_left_of_forall₂ hdeclares hd
    exact ⟨subject.fields, Schema.fields_mem_fieldLists hsubject, m.field, (hof.hasMember hm).1, hP⟩

include hcreate hshape

/-- A kind occurs in the schema just where its mark occurs in the type of a member. -/
theorem usesKind_iff_mentions (hmark : language.IsMark kind mark first sign)
    (hkind : kind.isPrimitive = true) :
    schema.usesKind kind = true ↔ outline.Mentions mark := by
  rw [Schema.usesKind_iff, exists_member_iff hdeclares, Outline.Mentions]
  refine exists_congr fun d => and_congr_right fun hd => ?_
  refine exists_congr fun m => and_congr_right fun hm => ?_
  obtain ⟨base, hbase, htype⟩ := base_of_member hcreate hdeclares hshape hd hm
  obtain ⟨subject, hsubject, hof⟩ := exists_left_of_forall₂ hdeclares hd
  have hfield := hshape _ (Schema.fields_mem_fieldLists hsubject) _ (hof.hasMember hm).1
  rw [htype, hmark.infix_fieldType_iff hbase, Descriptor.mentions_iff_of_hasShape hfield hkind]

omit hshape in
/-- A check for an instant comes from a field of the schema. -/
theorem hasClock_of_checksInstant (h : outline.ChecksInstant) :
    language.hasClock options schema = true := by
  obtain ⟨d, hd, plan, hplan, entry, hentry, -, hkind⟩ := h
  obtain ⟨-, -, hoptions, -⟩ := (owns_of_create hcreate).1
  obtain ⟨subject, hsubject, hof⟩ := exists_left_of_forall₂ hdeclares hd
  obtain ⟨hvalidate, hm, -⟩ := hof.ruled hplan hentry
  have huses : schema.usesKind .timestamp = true := by
    rw [Schema.usesKind_iff, exists_member_iff hdeclares]
    exact ⟨d, hd, entry.1, hm, hkind ▸ Descriptor.mentions_kind _⟩
  have hoptions : e.options = options := hoptions
  rw [hoptions] at hvalidate
  cases language <;> simp [Language.hasClock, huses, hvalidate]

end

section

variable {target : Target} (hcreate : create target.language schema options = .ok e)
  (hincludes : options.includeTypes = target.includeTypes)
  (hclient : options.includeClient = target.includeClient)
include hcreate hincludes hclient

/-- The import lines of a document are those of its header, and the lines that stray from the
texts it does not quote. -/
theorem importsOf_document (htypes : target.includeTypes = true)
    (houtline : e.outline.outcome = .ok outline)
    (hshape : ∀ fields ∈ schema.fieldLists, ∀ field ∈ fields, field.type.HasShape)
    (hlanguage : target.language = .go ∨ target.language = .rust) :
    target.language.importsOf (Draft.render target.language.dialect.indentUnit
        (target.language.dialect.draft options schema outline)) =
      target.language.headerImports options (schema.usesKind .timestamp)
        (schema.usesKind .object) ++ outline.strays options target.language := by
  have htypes := hincludes.trans htypes
  have hdeclares := declares_of_create hcreate htypes houtline
  have hstubs := stubs_eq hcreate hclient houtline
  refine Language.importsOf_draft hlanguage htypes
    (fun d hd => isPlain_of_mem hcreate hdeclares hshape hd) ?_ ?_
  · intro s hs
    split at hstubs
    · obtain ⟨method, -, hof⟩ := exists_left_of_forall₂ hstubs.2 hs
      exact hof.isPlain hcreate
    · rw [hstubs] at hs
      contradiction
  · intro hinclude
    rw [hclient] at hinclude
    rw [if_pos hinclude] at hstubs
    exact hlanguage.resolve_left hstubs.1

end

end Emitter

namespace Schema

variable {schema : Schema} {settings : Settings} {target : Target} {document : String}

/-- **Imports are there for their uses, as far as texts stay on one line.**  A document with
declarations begins with a notice and the imports of its language.  Those of Go and Rust have what
deals with instants, and those of Rust maps, just where the type of some member needs it; besides
them, these documents import what strays from texts that stand in them without quotes, which is
nothing if these texts hold no line feed.  In TypeScript the instant is defined that validations
compare with, wherever one does. -/
theorem generate_imports (hshape : ∀ entry ∈ schema.ownedFields, entry.2.type.HasShape)
    (htarget : Target.ofName? settings.target = some target) (htypes : target.includeTypes = true)
    (h : (schema.generate settings).outcome = .ok document) :
    ∃ outline clock maps strays,
      document = Draft.render target.language.dialect.indentUnit
        (target.language.dialect.draft (settings.options schema target) schema outline) ∧
      Text.Begins document
        (target.language.importLines (settings.options schema target) clock maps) ∧
      strays = outline.strays (settings.options schema target) target.language ∧
      ((∀ text ∈ outline.unquoted (settings.options schema target) target.language,
        '\n' ∉ text.toList) → strays = []) ∧
      (target.language = .go →
        (clock = true ↔ outline.Mentions "time.Time") ∧
        Language.go.importsOf document =
          Language.go.straysOf (settings.options schema target).package ++ ["(".toList] ++ strays) ∧
      (target.language = .rust →
        (maps = true ↔ outline.Mentions "HashMap<") ∧
        (clock = true ↔ outline.Mentions "DateTime<Utc>") ∧
        Language.rust.importsOf document = Language.rustImports clock maps ++ strays ∧
        ("std::collections::HashMap;".toList ∈ Language.rust.importsOf document ↔
          outline.Mentions "HashMap<" ∨ "std::collections::HashMap;".toList ∈ strays) ∧
        ("chrono::\x7bDateTime, Utc\x7d;".toList ∈ Language.rust.importsOf document ↔
          outline.Mentions "DateTime<Utc>" ∨ "chrono::\x7bDateTime, Utc\x7d;".toList ∈ strays)) ∧
      (target.language = .typescript → outline.ChecksInstant → clock = true) := by
  obtain ⟨-, e, outline, hcreate, houtline, rfl⟩ := (generate_eq_ok_iff htarget).1 h
  have hdeclares := Emitter.declares_of_create hcreate htypes houtline
  have hshape := (forall_fieldLists_iff (P := fun field => field.type.HasShape)).2 hshape
  have hmentions {kind : Kind} {mark : String} {first sign : Char}
      (hmark : target.language.IsMark kind mark first sign) (hkind : kind.isPrimitive = true) :
      schema.usesKind kind = true ↔ outline.Mentions mark :=
    Emitter.usesKind_iff_mentions hcreate hdeclares hshape hmark hkind
  have himports : target.language = .go ∨ target.language = .rust →
      target.language.importsOf (Draft.render target.language.dialect.indentUnit
        (target.language.dialect.draft (settings.options schema target) schema outline)) =
      target.language.headerImports (settings.options schema target) (schema.usesKind .timestamp)
        (schema.usesKind .object) ++
          outline.strays (settings.options schema target) target.language :=
    Emitter.importsOf_document hcreate rfl rfl htypes houtline hshape
  refine ⟨outline, target.language.hasClock (settings.options schema target) schema,
    schema.usesKind .object, _, rfl, Language.begins_draft htypes, rfl, Outline.strays_eq_nil, ?_,
    ?_, ?_⟩
  · intro hgo
    rw [hgo] at hmentions himports ⊢
    exact ⟨hmentions Language.isMark_time rfl, himports (.inl rfl)⟩
  · intro hrust
    rw [hrust] at hmentions himports ⊢
    have hmaps := hmentions Language.isMark_hashMap rfl
    have hclock := hmentions Language.isMark_dateTime rfl
    have himports := himports (.inr rfl)
    refine ⟨hmaps, hclock, himports, ?_, ?_⟩
    · rw [himports, List.mem_append, ← hmaps, Language.headerImports,
        Language.mem_rustImports_maps]
    · rw [himports, List.mem_append, ← hclock, Language.headerImports,
        Language.mem_rustImports_clock]
  · exact fun _ hchecks => Emitter.hasClock_of_checksInstant hcreate hdeclares hchecks

/-- A schema whose types are called like others. -/
def diary : Schema where
  name := "diary"
  description := ""
  types := [
    { name := "HashMap"
      description := ""
      properties := [
        { name := "pages", type := .array (.array (.primitive .timestamp)), description := ""
          required := false, default := .null, enum := none }] }]
  methods := [
    { name := "open"
      description := ""
      inputs := [
        { name := "since", type := .primitive .timestamp, description := "", required := true
          default := .null, enum := none }]
      outputs := [
        { name := "maps", type := .array (.reference "HashMap"), description := ""
          required := false, default := .null, enum := none }] }]
  goTags := []
  typeNames_nodup := by decide
  methodNames_nodup := by decide

/-- The type of the pages is no import of maps, whatever it is called, and the instants are found
inside of their arrays. -/
theorem diary_generate_imports :
    ∃ document,
      (diary.generate (validatedClient.retarget .rustClient (some true))).outcome = .ok document ∧
      ∃ outline clock maps,
        document = Draft.render Target.rustClient.language.dialect.indentUnit
          (Target.rustClient.language.dialect.draft
            ((validatedClient.retarget .rustClient (some true)).options diary .rustClient) diary
            outline) ∧
        Text.Begins document (Language.rust.importLines
          ((validatedClient.retarget .rustClient (some true)).options diary .rustClient)
          clock maps) ∧
        (maps = true ↔ outline.Mentions "HashMap<") ∧
        (clock = true ↔ outline.Mentions "DateTime<Utc>") ∧
        Language.rust.importsOf document = Language.rustImports clock maps ++
          outline.strays ((validatedClient.retarget .rustClient (some true)).options diary
            .rustClient) .rust := by
  have htarget : Target.ofName? (validatedClient.retarget .rustClient (some true)).target =
      some .rustClient := rfl
  have hshape : ∀ entry ∈ diary.ownedFields, entry.2.type.HasShape := by
    rw [forall_ownedFields_iff (P := fun field => field.type.HasShape)]
    have hinstant : (Descriptor.primitive .timestamp).HasShape := .primitive rfl
    simp only [diary, List.forall_mem_cons, List.not_mem_nil, false_implies, implies_true, and_true]
    exact ⟨.array (.array hinstant), hinstant, .array (.reference "HashMap")⟩
  obtain ⟨document, hdocument⟩ : ∃ document,
      (diary.generate (validatedClient.retarget .rustClient (some true))).outcome =
        .ok document :=
    ⟨_, (generate_eq_ok_iff htarget).2 ⟨by decide, _, _, rfl, rfl, rfl⟩⟩
  obtain ⟨outline, clock, maps, strays, hrender, hbegins, hstrays, -, -, hrust, -⟩ :=
    generate_imports hshape htarget rfl hdocument
  obtain ⟨hmaps, hclock, himports, -⟩ := hrust rfl
  subst hstrays
  exact ⟨document, hdocument, outline, clock, maps, hrender, hbegins, hmaps, hclock, himports⟩

/-- A description that goes on with an import of maps, of a type that has no members. -/
theorem box_imports_strayed :
    (∃ root, ofValue root = .ok (box "x\nuse std::collections::HashMap;")) ∧
      ((box "x\nuse std::collections::HashMap;").generate plainTypes).outcome =
        .ok (boxDocument "Box x\nuse std::collections::HashMap;") ∧
      (∃ e outline,
        Emitter.create .rust (box "x\nuse std::collections::HashMap;")
          (plainTypes.options (box "x\nuse std::collections::HashMap;") .rustTypes) = .ok e ∧
        e.outline.outcome = .ok outline ∧ ¬ outline.Mentions "HashMap<") ∧
      "std::collections::HashMap;".toList ∈ Language.rust.importsOf
        (boxDocument "Box x\nuse std::collections::HashMap;") := by
  have hbox := @wellFormed_box "x\nuse std::collections::HashMap;" (by decide)
  refine ⟨⟨_, ofValue_toValue hbox⟩, ?_, ?_, by decide +kernel⟩
  · exact (generate_eq_ok_iff target_plainTypes).2 ⟨by decide, _, _, rfl, rfl, by decide +kernel⟩
  · refine ⟨_, _, rfl, rfl, ?_⟩
    rintro ⟨d, hd, m, hm, -⟩
    obtain rfl := List.mem_singleton.1 hd
    contradiction

end Schema

end RpcBindings
