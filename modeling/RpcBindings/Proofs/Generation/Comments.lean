import RpcBindings.Proofs.Generation.Closed
import RpcBindings.Proofs.Schema.Document
import RpcBindings.Proofs.Target.Comments
import RpcBindings.Proofs.Typing.Marks

/-!
# RpcBindings.Proofs.Generation.Comments

Documents under other descriptions.  Whatever the types, methods and fields of a schema
are described by, the same documents are generated up to their comments, and the same
errors; only a description that goes on behind a line feed can leave its comment, and
does so unless the lines that it goes on with are comments by chance
(`generate_under_descriptions`).
-/

namespace RpcBindings

/-! ## The remarks of a schema -/

/-- What is said of a structure and of its fields. -/
def Subject.remarks (subject : Subject) : List Remark :=
  subject.role.remark :: subject.fields.map Field.remark

/-- What is said of a method in the client; TypeScript says it in a block. -/
def Method.remarks (method : Method) : Language → List Remark
  | .rust => [.ofDescription method.description]
  | .ruby => .ofDescription (Text.capitalize method.description) ::
      method.inputs.map Field.parameterRemark
  | .go | .typescript => []

namespace Schema

/-- All that the document for a target says of a schema in comments of one line. -/
def remarks (schema : Schema) (target : Target) : List Remark :=
  (if target.includeTypes then schema.subjects.flatMap Subject.remarks else []) ++
    (if target.includeClient then schema.methods.flatMap (·.remarks target.language) else [])

/-- The descriptions leave the code alone. -/
def Confined (schema : Schema) (target : Target) (marker : String) : Prop :=
  ∀ remark ∈ schema.remarks target, remark.Confined marker

instance (schema : Schema) (target : Target) (marker : String) :
    Decidable (schema.Confined target marker) :=
  inferInstanceAs (Decidable (∀ remark ∈ schema.remarks target, remark.Confined marker))

/-- No description, and no name of a field, holds a line feed. -/
structure IsFeedless (schema : Schema) : Prop where
  types : ∀ type ∈ schema.types, '\n' ∉ type.description.toList
  methods : ∀ method ∈ schema.methods, '\n' ∉ method.description.toList
  fields : ∀ fields ∈ schema.fieldLists, ∀ field ∈ fields,
    '\n' ∉ field.name.toList ∧ '\n' ∉ field.description.toList

end Schema

/-! ## Documents and their bare outlines -/

namespace Dialect

variable {dialect : Dialect} {marker : String} {options : Options} {outline : Outline}
  {P : Declaration → Prop} {Q : Stub → Prop}

/-- The parts of a document behind its header. -/
def parts (dialect : Dialect) (options : Options) (outline : Outline) : Draft :=
  outline.declarations.flatMap (dialect.part options) ++
    if options.includeClient then dialect.client options outline.stubs else []

/-- A document is annotated where its declarations and its stubs are. -/
theorem annotates_parts
    (hparts : ∀ d ∈ outline.declarations, Draft.Annotates dialect.indentUnit marker (P d)
      (dialect.part options d.bare) (dialect.part options d))
    (hstubs : ∀ s ∈ outline.stubs, Draft.Annotates dialect.indentUnit marker (Q s)
      (dialect.stub s.bare) (dialect.stub s))
    (hclient : options.includeClient = false → outline.stubs = []) :
    Draft.Annotates dialect.indentUnit marker
      ((∀ d ∈ outline.declarations, P d) ∧ ∀ s ∈ outline.stubs, Q s)
      (dialect.parts options outline.bare) (dialect.parts options outline) := by
  have hdeclarations := Draft.Annotates.flatMap hparts
  have hmethods := Draft.Annotates.flatMap hstubs
  have hbare : outline.bare.declarations = outline.declarations.map Declaration.bare := rfl
  have hbare' : outline.bare.stubs = outline.stubs.map Stub.bare := rfl
  rw [parts, parts, hbare, List.flatMap_map]
  refine hdeclarations.append ?_
  cases hinclude : options.includeClient with
  | false =>
      rw [hclient hinclude]
      exact (Draft.Annotates.refl _ _ _).congr (by simp)
  | true =>
      simp only [if_true, client, hbare', List.flatMap_map]
      exact (hmethods.append_left _).append_right _

end Dialect

/-- A draft that starts with a line is laid out starting with that line. -/
theorem Draft.exists_lines_cons (unit text : String) (more : Draft) :
    ∃ rest, Draft.lines unit (.line 0 text :: more) = text :: rest := by
  obtain ⟨rest, hrest⟩ := prefix_foldl_write unit more [text]
  have hfirst : Stroke.write unit [] (.line 0 text) = [text] :=
    congrArg (fun line => [line]) (Stroke.textOf_zero unit text)
  refine ⟨rest, ?_⟩
  rw [Draft.lines, List.foldl_cons, hfirst, ← hrest]
  rfl

namespace Language

variable {language : Language} {marker : String} {options : Options} {schema : Schema}

/-- The header of a document does not depend on descriptions. -/
theorem header_undescribed (language : Language) (options : Options) (schema : Schema) :
    language.dialect.header options schema.undescribed =
      language.dialect.header options schema := by
  have hkind (kind : Kind) := schema.usesKind_undescribed kind
  cases language with
  | go => simp only [dialect, Go.dialect, Go.header, hkind]
  | rust => simp only [dialect, Rust.dialect, Rust.header, hkind]
  | typescript => simp only [dialect, TypeScript.dialect, TypeScript.header, hkind]
  | ruby => rfl

/-- Every document begins with the notice. -/
theorem exists_header (language : Language) (options : Options) (schema : Schema) :
    ∃ mark more, language.dialect.header options schema =
      .line 0 (mark ++ generatedNotice) :: more := by
  cases language with
  | go => exact ⟨"// ", _, rfl⟩
  | rust => exact ⟨"// ", _, rfl⟩
  | typescript => exact ⟨"// ", _, rfl⟩
  | ruby => exact ⟨"# ", _, rfl⟩

/-- A document has the code of its bare outline where its parts have. -/
theorem growsUnless_render {outline : Outline} {P : Prop}
    (h : Draft.Annotates language.dialect.indentUnit marker P
      (language.dialect.parts options outline.bare) (language.dialect.parts options outline)) :
    GrowsUnless P
      (Text.codeLines marker (Draft.render language.dialect.indentUnit
        (language.dialect.draft options schema.undescribed outline.bare)))
      (Text.codeLines marker (Draft.render language.dialect.indentUnit
        (language.dialect.draft options schema outline))) := by
  have hdraft (outline : Outline) : language.dialect.draft options schema outline =
      language.dialect.header options schema ++ language.dialect.parts options outline :=
    List.append_assoc _ _ _
  have hbare : language.dialect.draft options schema.undescribed outline.bare =
      language.dialect.draft options schema outline.bare := by
    rw [Dialect.draft, header_undescribed, Dialect.draft]
  obtain ⟨mark, more, hheader⟩ := language.exists_header options schema
  obtain ⟨rest, hlines⟩ :=
    Draft.exists_lines_cons language.dialect.indentUnit (mark ++ generatedNotice) more
  have hnotice : mark ++ generatedNotice ≠ "" := fun hempty =>
    absurd (String.append_eq_empty_iff.1 hempty).2 (by decide)
  rw [hbare, hdraft, hdraft, hheader]
  exact h.growsUnless_render hlines hnotice

end Language

/-! ## What is said in an outline -/

namespace Emitter

variable {e : Emitter} {language : Language} {schema : Schema} {options : Options} {owner : String}
  {fields : List Field} {members : List Member} {subject : Subject} {d : Declaration}
  {method : Method} {s : Stub} {marker : String}

/-- Each member has the summary of its field. -/
theorem summary_of_members (h : e.members owner fields = .ok members) :
    ∀ m ∈ members, e.summaryOf m.identifier m.field = .ok m.summary := by
  obtain ⟨typed, -, hsummaries⟩ := bind_eq_ok_iff.1 h
  intro m hm
  obtain ⟨⟨field, identifier, type⟩, -, hof⟩ := exists_of_mem_mapM hsummaries hm
  obtain ⟨summary, hsummary, hof⟩ := bind_eq_ok_iff.1 hof
  obtain rfl := Except.ok.inj hof
  exact mapError_eq_ok_iff.1 hsummary

/-- Members in Go and Rust are commented by their summaries. -/
theorem Declares.isSummarized (h : e.Declares subject d)
    (hlanguage : e.language = .go ∨ e.language = .rust) : ∀ m ∈ d.members, m.IsSummarized := by
  intro m hm
  have hidentifier := Language.casing_of_identifier (h.hasMember hm).2.identifier
  have hsummary := summary_of_members h.members m hm
  have hne : e.language ≠ .typescript := by
    rintro heq
    simp [heq] at hlanguage
  refine ⟨?_, ?_⟩
  · rw [← hidentifier]
    exact Language.notMem_casing (.inl hne) m.field.name
  · obtain hgo | hrust := hlanguage
    · simpa [summaryOf, hgo] using hsummary
    · simpa [summaryOf, hrust] using hsummary

/-- A declaration is confined exactly where the remarks of its subject are. -/
theorem Declares.confined_iff (h : e.Declares subject d) :
    d.Confined marker ↔ ∀ remark ∈ subject.remarks, remark.Confined marker := by
  rw [Declaration.Confined, Subject.remarks, List.forall_mem_cons, h.role,
    ← map_field_of_members h.members, List.map_map, List.forall_mem_map]
  rfl

/-- A parameter has the type of its field and the trimmed description with the extras behind it. -/
theorem parameter_eq_ok {field : Field} {p : Parameter} (h : e.parameter method field = .ok p) :
    p.field = field ∧
      e.language.typeSystem.expressField e.schema (some method.name) field = .ok p.type ∧
      p.summary = Text.trim (Text.capitalize field.description ++ field.sentences) := by
  obtain ⟨type, htype, h⟩ := bind_eq_ok_iff.1 h
  obtain ⟨sentences, hsentences, h⟩ := bind_eq_ok_iff.1 h
  obtain rfl := Except.ok.inj h
  have hfield : field.sentences = sentences := by
    rw [Field.sentences, mapError_eq_ok_iff.1 hsentences]
    rfl
  exact ⟨rfl, mapError_eq_ok_iff.1 htype, hfield ▸ rfl⟩

/-- The fields of parameters are the inputs of the method. -/
theorem map_field_of_parameters {parameters : List Parameter}
    (h : fields.mapM (e.parameter method) = .ok parameters) :
    parameters.map (·.field) = fields := by
  have hparameters := mapM_eq_ok_iff.1 h
  clear h
  induction hparameters with
  | nil => rfl
  | cons hfirst _ ih => rw [List.map_cons, (parameter_eq_ok hfirst).1, ih]

end Emitter

namespace Emitter

variable {e : Emitter} {language : Language} {schema : Schema} {options : Options}
  {method : Method} {s : Stub} {marker : String}

/-- The Ruby stub of a well-formed method is documented. -/
theorem Calls.isDocumented (h : e.Calls method s) (hcreate : create .ruby schema options = .ok e)
    (hschema : schema.WellFormed) (hmethod : method ∈ schema.methods) : s.IsDocumented := by
  obtain ⟨hlanguage, heq, -⟩ := (owns_of_create hcreate).1
  obtain rfl := h.source
  have hlanguage : e.language = .ruby := hlanguage
  have hparameters := h.parameters
  rw [hlanguage] at hparameters
  have hparameters : s.method.inputs.mapM (e.parameter s.method) = .ok s.parameters := hparameters
  refine ⟨?_, ?_, ?_⟩
  · rw [← casing_of_methodName hcreate h.function]
    exact Language.notMem_casing (.inl (by decide)) s.method.name
  · intro p hp
    obtain ⟨field, hfield, hof⟩ := exists_of_mem_mapM hparameters hp
    obtain ⟨rfl, htype, hsummary⟩ := parameter_eq_ok hof
    have hwell := (hschema.methods s.method hmethod).inputs.fields p.field hfield
    rw [hlanguage] at htype
    exact ⟨TypeSystem.notMem_expressField hwell.type.shape htype, hwell.name, hsummary⟩
  · intro hnone
    have hinputs : s.method.inputs = [] := by
      by_contra hinputs
      simpa [hnone] using h.takes.2 hinputs
    rw [hinputs] at hparameters
    exact (Except.ok.inj hparameters).symm

/-! ## The code of a document -/

section

variable {outline : Outline} {target : Target}
  (hcreate : create target.language schema options = .ok e)
  (htypes : options.includeTypes = target.includeTypes)
  (hclient : options.includeClient = target.includeClient)
  (houtline : e.outline.outcome = .ok outline)

include hcreate htypes houtline

/-- The declarations of a document declare the subjects of the schema, in order, where types are
included. -/
theorem declarations_eq :
    if target.includeTypes then List.Forall₂ e.Declares schema.subjects outline.declarations
    else outline.declarations = [] := by
  obtain ⟨-, hschema, hoptions, -⟩ := (owns_of_create hcreate).1
  have hschema : e.schema = schema := hschema
  have hoptions : e.options = options := hoptions
  split
  · next hinclude =>
    rw [← hschema]
    exact declares_outline houtline (by rw [hoptions, htypes, hinclude])
  · next hinclude =>
    obtain ⟨hdeclarations, -⟩ := outline_eq_ok houtline
    rw [hoptions, htypes, if_neg hinclude] at hdeclarations
    exact (Except.ok.inj hdeclarations).symm

/-- The declarations are confined exactly where the remarks of the subjects are. -/
theorem forall_declarations_confined_iff :
    (∀ d ∈ outline.declarations, d.Confined marker) ↔
      ∀ remark ∈ if target.includeTypes then schema.subjects.flatMap Subject.remarks else [],
        remark.Confined marker := by
  have hdeclarations := declarations_eq hcreate htypes houtline
  split at hdeclarations
  · next hinclude =>
    rw [if_pos hinclude, List.forall_mem_flatMap]
    exact (forall_mem_iff_of_forall₂ hdeclarations fun _ _ hof => hof.confined_iff.symm).symm
  · next hinclude =>
    rw [if_neg hinclude, hdeclarations]
    simp

omit htypes

include hclient

/-- The stubs of a document call the methods of the schema, in order, where a client is included. -/
theorem stubs_eq :
    if target.includeClient then target.language ≠ .go ∧
      List.Forall₂ e.Calls schema.methods outline.stubs
    else outline.stubs = [] := by
  obtain ⟨hlanguage, hschema, hoptions, -⟩ := (owns_of_create hcreate).1
  have hlanguage : e.language = target.language := hlanguage
  have hschema : e.schema = schema := hschema
  have hoptions : e.options = options := hoptions
  obtain ⟨-, hstubs⟩ := outline_eq_ok houtline
  rw [hoptions, hclient] at hstubs
  split at hstubs
  · next hinclude =>
    rw [if_pos hinclude, ← hlanguage, ← hschema]
    exact calls_of_stubs hstubs
  · next hinclude =>
    rw [if_neg hinclude]
    exact (Except.ok.inj hstubs).symm

/-- The stubs are confined exactly where the remarks of the methods are. -/
theorem forall_stubs_confined_iff :
    (∀ s ∈ outline.stubs, ∀ remark ∈ s.method.remarks target.language, remark.Confined marker) ↔
      ∀ remark ∈
          if target.includeClient then schema.methods.flatMap (·.remarks target.language) else [],
        remark.Confined marker := by
  have hstubs := stubs_eq hcreate hclient houtline
  split at hstubs
  · next hinclude =>
    rw [if_pos hinclude, List.forall_mem_flatMap]
    refine (forall_mem_iff_of_forall₂ hstubs.2 fun method s hof => ?_).symm
    rw [hof.source]
  · next hinclude =>
    rw [if_neg hinclude, hstubs]
    simp

/-- Each stub is annotated by its confined remarks. -/
theorem annotates_stubs (hschema : schema.WellFormed)
    (hmarker : target.language.lineMarker? = some marker) :
    ∀ s ∈ outline.stubs, Draft.Annotates target.language.dialect.indentUnit marker
      (∀ remark ∈ s.method.remarks target.language, remark.Confined marker)
      (target.language.dialect.stub s.bare) (target.language.dialect.stub s) := by
  intro s hs
  have hstubs := stubs_eq hcreate hclient houtline
  split at hstubs
  · obtain ⟨hgo, hstubs⟩ := hstubs
    obtain ⟨method, hmethod, hof⟩ := exists_left_of_forall₂ hstubs hs
    obtain rfl := hof.source
    have hcasing := casing_of_methodName hcreate hof.function
    cases hlanguage : target.language with
    | go => contradiction
    | rust =>
        rw [hlanguage] at hmarker hcasing
        obtain rfl : "//" = marker := Option.some.inj hmarker
        have hfeed : '\n' ∉ s.function.toList := by
          rw [← hcasing]
          exact Language.notMem_casing (.inl (by decide)) s.method.name
        exact (Rust.annotates_stub hfeed).congr (by simp [Method.remarks])
    | typescript =>
        rw [hlanguage] at hmarker
        contradiction
    | ruby =>
        rw [hlanguage] at hmarker hcreate
        obtain rfl : "#" = marker := Option.some.inj hmarker
        have hparameters : s.parameters.map (·.field) = s.method.inputs := by
          have hparameters := hof.parameters
          have he : e.language = .ruby := (owns_of_create hcreate).1.language
          rw [he] at hparameters
          exact map_field_of_parameters hparameters
        refine (Ruby.annotates_stub (hof.isDocumented hcreate hschema hmethod)).congr ?_
        rw [Method.remarks, List.forall_mem_cons, ← hparameters, List.map_map, List.forall_mem_map]
        rfl
  · rw [hstubs] at hs
    contradiction

include htypes

/-- The parts of a document have the code of the bare outline just where no remark
overruns further than without its description. -/
theorem annotates_outline (hschema : schema.WellFormed)
    (hmarker : target.language.lineMarker? = some marker)
    (hruby : target.language = .ruby → target.includeTypes = false) :
    Draft.Annotates target.language.dialect.indentUnit marker (schema.Confined target marker)
      (target.language.dialect.parts options outline.bare)
      (target.language.dialect.parts options outline) := by
  have hdeclarations : ∀ d ∈ outline.declarations,
      Draft.Annotates target.language.dialect.indentUnit marker (d.Confined marker)
        (target.language.dialect.part options d.bare)
        (target.language.dialect.part options d) := by
    intro d hd
    have hdeclares := declarations_eq hcreate htypes houtline
    split at hdeclares
    · next hinclude =>
      obtain ⟨subject, -, hof⟩ := exists_left_of_forall₂ hdeclares hd
      have hname : '\n' ∉ d.name.toList :=
        fun hc => absurd (hof.isWordChar hcreate _ hc) (by decide)
      have hof' : e.language = target.language := (owns_of_create hcreate).1.language
      cases hlanguage : target.language with
      | go =>
          rw [hlanguage] at hmarker hof'
          obtain rfl : "//" = marker := Option.some.inj hmarker
          exact Go.annotates_part hname (hof.isSummarized (.inl hof'))
      | rust =>
          rw [hlanguage] at hmarker hof'
          obtain rfl : "//" = marker := Option.some.inj hmarker
          exact Rust.annotates_part hname (hof.isSummarized (.inr hof'))
      | typescript =>
          rw [hlanguage] at hmarker
          contradiction
      | ruby =>
          rw [hruby hlanguage] at hinclude
          contradiction
    · rw [hdeclares] at hd
      contradiction
  have hnone : options.includeClient = false → outline.stubs = [] := by
    intro hinclude
    have hstubs := stubs_eq hcreate hclient houtline
    rwa [← hclient, hinclude] at hstubs
  refine (Dialect.annotates_parts hdeclarations
    (annotates_stubs hcreate hclient houtline hschema hmarker) hnone).congr ?_
  rw [forall_declarations_confined_iff hcreate htypes houtline,
    forall_stubs_confined_iff hcreate hclient houtline, Schema.Confined, Schema.remarks,
    List.forall_mem_append]

end

end Emitter

/-! ## Two descriptions of one schema -/

namespace Schema

variable {schema schema' : Schema} {settings : Settings} {target : Target}
  {marker document document' : String}

/-- Whether a document is generated, and with which error not, is no matter of
descriptions. -/
theorem map_generate_undescribed (schema : Schema) (settings : Settings) :
    (schema.undescribed.generate settings).outcome.map (fun _ => ()) =
      (schema.generate settings).outcome.map fun _ => () := by
  unfold generate
  split
  · rfl
  · next target htarget =>
    have hoptions : settings.options schema.undescribed target = settings.options schema target :=
      rfl
    simp only [Noted.outcome_bind, Noted.outcome_lift, Noted.outcome_note, Noted.outcome_mapError,
      Noted.outcome_mapNotices, Noted.outcome_pure, checkReferences_undescribed, hoptions,
      Emitter.create_undescribed, mapError_map, bind_map]
    refine map_bind_congr_right fun _ => map_bind_congr_right fun _ => ?_
    refine map_bind_congr_right fun e => ?_
    have hdocument : e.undescribed.document.outcome.map (fun _ => ()) =
        e.document.outcome.map fun _ => () := by
      rw [Emitter.document, Emitter.document]
      simp only [Noted.outcome_bind]
      exact map_bind_congr _ _ _ (Emitter.map_outline_undescribed e) fun _ _ _ => rfl
    refine map_bind_congr (fun _ => ()) (fun _ => ()) _ ?_ fun _ _ _ => rfl
    rw [← mapError_map, hdocument, mapError_map]

/-- What the undescribed schema settles of a document: the document has no less code
than this, and no more just where the descriptions leave the code alone. -/
theorem exists_bare (hschema : schema.WellFormed)
    (htarget : Target.ofName? settings.target = some target)
    (hmarker : target.language.lineMarker? = some marker)
    (h : (schema.generate settings).outcome = .ok document) :
    ∃ e bare,
      Emitter.create target.language schema.undescribed
        (settings.options schema.undescribed target) = .ok e ∧
      e.outline.outcome.map Outline.bare = .ok bare ∧
      GrowsUnless (schema.Confined target marker)
        (Text.codeLines marker (Draft.render target.language.dialect.indentUnit
          (target.language.dialect.draft (settings.options schema.undescribed target)
            schema.undescribed bare)))
        (Text.codeLines marker document) := by
  obtain ⟨-, e, outline, hcreate, houtline, rfl⟩ := (generate_eq_ok_iff htarget).1 h
  have hruby : target.language = .ruby → target.includeTypes = false := by
    have hall : ∀ target ∈ Target.all, target.language = .ruby → target.includeTypes = false := by
      decide
    exact hall target (List.mem_of_find?_eq_some htarget)
  have hannotates := Emitter.annotates_outline hcreate rfl rfl houtline hschema hmarker hruby
  refine ⟨e.undescribed, outline.bare, ?_, ?_, Language.growsUnless_render hannotates⟩
  · have hoptions : settings.options schema.undescribed target = settings.options schema target :=
      rfl
    rw [hoptions, Emitter.create_undescribed, hcreate]
    rfl
  · rw [Emitter.map_outline_undescribed, houtline]
    rfl

/-- The remark on a subject is confined where no description of the schema has a line feed. -/
theorem confined_role (h : schema.IsFeedless) {subject : Subject}
    (hsubject : subject ∈ schema.subjects) : subject.role.remark.Confined marker := by
  obtain ⟨type, htype, rfl⟩ | ⟨method, -, rfl | rfl⟩ := mem_subjects hsubject
  · exact Remark.confined_ofDescription (h.types type htype)
  · exact rfl
  · exact rfl

/-- Descriptions and names on one line leave the code alone. -/
theorem confined_of_isFeedless (hschema : schema.WellFormed) (h : schema.IsFeedless) :
    schema.Confined target marker := by
  have hsubjects : ∀ subject ∈ schema.subjects, ∀ remark ∈ subject.remarks,
      remark.Confined marker := by
    intro subject hsubject
    rw [Subject.remarks, List.forall_mem_cons, List.forall_mem_map]
    refine ⟨?_, fun field hfield => ?_⟩
    · exact confined_role h hsubject
    · obtain ⟨hname, hdescription⟩ := h.fields _ (fields_mem_fieldLists hsubject) field hfield
      exact Field.confined_remark hname hdescription
  have hmethods : ∀ method ∈ schema.methods, ∀ remark ∈ method.remarks target.language,
      remark.Confined marker := by
    intro method hmethod
    have hdescription := h.methods method hmethod
    cases target.language with
    | go => simp [Method.remarks]
    | rust => simpa [Method.remarks] using Remark.confined_ofDescription hdescription
    | typescript => simp [Method.remarks]
    | ruby =>
        rw [Method.remarks, List.forall_mem_cons, List.forall_mem_map]
        refine ⟨Remark.confined_ofDescription (Text.notMem_capitalize hdescription),
          fun field hfield => ?_⟩
        have hname := ((hschema.methods method hmethod).inputs.fields field hfield).name
        obtain ⟨hfeed, hdescription⟩ := h.fields _ (inputs_mem_fieldLists hmethod) field hfield
        exact Field.confined_parameterRemark hname hfeed hdescription
  intro remark hremark
  rw [remarks, List.mem_append, List.mem_ite_nil_right, List.mem_ite_nil_right, List.mem_flatMap,
    List.mem_flatMap] at hremark
  obtain ⟨-, subject, hsubject, hremark⟩ | ⟨-, method, hmethod, hremark⟩ := hremark
  · exact hsubjects subject hsubject remark hremark
  · exact hmethods method hmethod remark hremark

/-- **Descriptions are confined to comments, as far as they stay on one line.**  Schemas
that differ in nothing but the descriptions of types, methods and fields fail alike.  If
the descriptions of one leave the code of its document alone, then the document of the
other has the same lines of code just where its descriptions do so too.  All that are
free of line feeds, in a schema whose fields have names free of them, do. -/
theorem generate_under_descriptions (hread : ∃ root, ofValue root = .ok schema)
    (hread' : ∃ root, ofValue root = .ok schema')
    (hsame : schema'.undescribed = schema.undescribed)
    (htarget : Target.ofName? settings.target = some target)
    (hmarker : target.language.lineMarker? = some marker) :
    (∀ error, (schema.generate settings).outcome = .error error ↔
      (schema'.generate settings).outcome = .error error) ∧
    (∀ document document', (schema.generate settings).outcome = .ok document →
      (schema'.generate settings).outcome = .ok document' → schema.Confined target marker →
        (Text.codeLines marker document = Text.codeLines marker document' ↔
          schema'.Confined target marker)) ∧
    (schema.IsFeedless → schema.Confined target marker) := by
  obtain ⟨root, hroot⟩ := hread
  obtain ⟨root', hroot'⟩ := hread'
  have hschema := wellFormed_of_ofValue hroot
  have hschema' := wellFormed_of_ofValue hroot'
  refine ⟨fun error => ?_, ?_, confined_of_isFeedless hschema⟩
  · have hfail := map_generate_undescribed schema settings
    rw [← hsame, map_generate_undescribed schema' settings] at hfail
    rw [← map_eq_error_iff, ← hfail, map_eq_error_iff]
  · intro document document' hdocument hdocument' hconfined
    obtain ⟨e, bare, hcreate, hbare, hcode⟩ := exists_bare hschema htarget hmarker hdocument
    obtain ⟨e', bare', hcreate', hbare', hcode'⟩ := exists_bare hschema' htarget hmarker hdocument'
    rw [hsame] at hcreate' hcode'
    obtain rfl : e = e' := Except.ok.inj (hcreate.symm.trans hcreate')
    obtain rfl : bare = bare' := Except.ok.inj (hbare.symm.trans hbare')
    rw [← hcode.eq_iff.2 hconfined, hcode'.eq_iff]

/-- A schema with a box that is described in some words. -/
def box (description : String) : Schema where
  name := ""
  description := ""
  types := [{ name := "Box", description, properties := [] }]
  methods := []
  goTags := []
  typeNames_nodup := List.nodup_singleton _
  methodNames_nodup := List.nodup_nil

/-- A box with a trimmed description is well-formed. -/
theorem wellFormed_box {description : String} (h : Text.IsTrimmed description) :
    (box description).WellFormed where
  name := Text.isTrimmed_empty
  description := Text.isTrimmed_empty
  typeNames := (box description).typeNames_nodup
  types type htype := by
    obtain rfl := List.mem_singleton.1 htype
    have hname : Text.IsName "Box" := by decide
    exact ⟨hname, h, .nil, by simp⟩
  methodNames := (box description).methodNames_nodup
  methods := by simp [box]
  goTags := by simp [box]

/-- Structures in Rust without their validation. -/
def plainTypes : Settings where
  target := "rust-types"
  validate := some false

/-- The document of a box, with a text behind the marker of its comment. -/
def boxDocument (comment : String) : String :=
  "\n".intercalate ["// " ++ generatedNotice, "", "use serde::{Deserialize, Serialize};", "",
    "// " ++ comment, "#[derive(Serialize, Deserialize, Debug, Clone)]", "pub struct Box \x7b",
    "\x7d", ""]

theorem target_plainTypes : Target.ofName? plainTypes.target = some Target.rustTypes := rfl

/-- The document of a box holds its description in one comment. -/
theorem generate_box :
    ((box "to store things in.").generate plainTypes).outcome =
      .ok (boxDocument "Box to store things in.") :=
  (generate_eq_ok_iff target_plainTypes).2 ⟨by decide, _, _, rfl, rfl, by decide +kernel⟩

/-- Two descriptions on one line. -/
theorem generate_boxes_alike :
    ((box "of any size.").generate plainTypes).outcome = .ok (boxDocument "Box of any size.") ∧
      Text.codeLines "//" (boxDocument "Box to store things in.") =
        Text.codeLines "//" (boxDocument "Box of any size.") := by
  have hbox := @wellFormed_box "to store things in." (by decide)
  have hbox' := @wellFormed_box "of any size." (by decide)
  have hdocument : ((box "of any size.").generate plainTypes).outcome =
      .ok (boxDocument "Box of any size.") :=
    (generate_eq_ok_iff target_plainTypes).2 ⟨by decide, _, _, rfl, rfl, by decide +kernel⟩
  have hmarker : Target.rustTypes.language.lineMarker? = some "//" := rfl
  obtain ⟨-, hcode, -⟩ := generate_under_descriptions ⟨_, ofValue_toValue hbox⟩
    ⟨_, ofValue_toValue hbox'⟩ rfl target_plainTypes hmarker
  exact ⟨hdocument, (hcode _ _ generate_box hdocument (by decide +kernel)).2 (by decide +kernel)⟩

/-- A description on two lines, the second of which is code. -/
theorem generate_boxes_differ :
    (∃ root, ofValue root = .ok (box "to store things in.")) ∧
      (∃ root, ofValue root = .ok (box "to store\nthings in.")) ∧
      (box "to store\nthings in.").undescribed = (box "to store things in.").undescribed ∧
      ((box "to store things in.").generate plainTypes).outcome =
        .ok (boxDocument "Box to store things in.") ∧
      ((box "to store\nthings in.").generate plainTypes).outcome =
        .ok (boxDocument "Box to store\nthings in.") ∧
      Text.codeLines "//" (boxDocument "Box to store things in.") ≠
        Text.codeLines "//" (boxDocument "Box to store\nthings in.") := by
  have hbox := @wellFormed_box "to store things in." (by decide)
  have hbox' := @wellFormed_box "to store\nthings in." (by decide)
  refine ⟨⟨_, ofValue_toValue hbox⟩, ⟨_, ofValue_toValue hbox'⟩, rfl, generate_box, ?_, ?_⟩
  · exact (generate_eq_ok_iff target_plainTypes).2 ⟨by decide, _, _, rfl, rfl, by decide +kernel⟩
  · rw [boxDocument, boxDocument, Text.codeLines_intercalate (by simp),
      Text.codeLines_intercalate (by simp)]
    decide +kernel

end Schema

end RpcBindings
