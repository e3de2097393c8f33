import RpcBindings.Generation.Document
import RpcBindings.Proofs.Emission.Members
import RpcBindings.Proofs.Name.Casing
import RpcBindings.Proofs.Schema.References
import RpcBindings.Proofs.Source.Lines
import RpcBindings.Proofs.Typing.Expression

/-!
# RpcBindings.Proofs.Generation.Closed

Documents declare what they name.  Names come into a document on several ways: the
scope of declarations grants them, type expressions and the validation of elements
make them anew from the schema, and stubs ask the scope again.  All of them lead to
the same identifiers, so every structure and every validation that an outline names is
declared in it (`closed_outline`), and its document has the lines that open it
(`hasLines_structure`, `hasLines_validation`).
-/

namespace RpcBindings

/-! ## The lines of a declaration -/

namespace Language

/-- The lines that open the declaration of a structure. -/
def structureLines (name : String) : Language → List String
  | .go => ["type " ++ name ++ " struct \x7b"]
  | .rust => ["pub struct " ++ name ++ " \x7b"]
  | .typescript => ["export interface " ++ name ++ " \x7b"]
  | .ruby => []

/-- The lines that open the validation of a structure. -/
def validationLines (name : String) : Language → List String
  | .go => ["func (" ++ Go.receiver name ++ " *" ++ name ++ ") Validate() error \x7b"]
  | .rust =>
    ["impl " ++ name ++ " \x7b", "    pub fn validate(&mut self) -> Result<(), String> \x7b"]
  | .typescript =>
    ["export function validate" ++ name ++ "(value: " ++ name ++ "): string | undefined \x7b"]
  | .ruby => []

end Language

/-- A text has some lines in a row. -/
def Text.HasLines (text : String) (lines : List String) : Prop :=
  lines <:+: Text.split '\n' text

/-- A receiver is a letter or a digit. -/
theorem Go.notMem_receiver {name : String} (h : ∀ c ∈ name.toList, Name.isWordChar c = true) :
    '\n' ∉ (receiver name).toList := by
  rw [receiver, String.toList_ofList]
  intro hc
  obtain ⟨c, hmem, heq⟩ := List.mem_map.1 hc
  have hword := Name.isWordChar_toLower (h c (List.mem_of_mem_take hmem))
  rw [heq] at hword
  exact absurd hword (by decide)

namespace Dialect

variable {dialect : Dialect} {options : Options} {schema : Schema} {outline : Outline}
  {d : Declaration} {plan : Plan}

/-- Each declaration of an outline stands in the draft with its validation. -/
theorem part_infix_draft (hd : d ∈ outline.declarations) :
    dialect.part options d <:+: dialect.draft options schema outline := by
  obtain ⟨before, after, heq⟩ := List.append_of_mem hd
  rw [draft, heq, List.flatMap_append, List.flatMap_cons]
  refine ⟨dialect.header options schema ++ before.flatMap (dialect.part options),
    after.flatMap (dialect.part options) ++
      (if options.includeClient then dialect.client options outline.stubs else []), ?_⟩
  simp only [List.append_assoc]

/-- Each declaration of an outline stands in the draft. -/
theorem declaration_infix_draft (hd : d ∈ outline.declarations) :
    dialect.declaration options d <:+: dialect.draft options schema outline := by
  refine List.IsInfix.trans ?_ (part_infix_draft hd)
  rw [part, List.append_assoc]
  exact (List.prefix_append _ _).isInfix

/-- The validation of each declaration with a plan stands in the draft. -/
theorem validation_infix_draft (hd : d ∈ outline.declarations) (hplan : d.rules = some plan) :
    dialect.validation d plan <:+: dialect.draft options schema outline := by
  refine List.IsInfix.trans ?_ (part_infix_draft hd)
  have hpart : dialect.part options d =
      dialect.declaration options d ++ [.gap] ++ (dialect.validation d plan ++ [.gap]) := by
    rw [part, hplan]
  rw [hpart, ← List.append_assoc]
  exact List.infix_append _ _ _

end Dialect

namespace Language

variable {language : Language} {options : Options} {schema : Schema} {outline : Outline}
  {d : Declaration} {plan : Plan} {name : String}

/-- The drafts of these lines. -/
def structureStrokes (name : String) (language : Language) : List (Nat × String) :=
  (language.structureLines name).map fun line => (0, line)

/-- The drafts of these lines. -/
def validationStrokes (name : String) : Language → List (Nat × String)
  | .rust =>
    [(0, "impl " ++ name ++ " \x7b"),
     (1, "pub fn validate(&mut self) -> Result<(), String> \x7b")]
  | language => (language.validationLines name).map fun line => (0, line)

/-- The strokes that open a structure are its opening lines. -/
theorem map_structureStrokes (unit : String) (language : Language) (name : String) :
    (language.structureStrokes name).map (fun stroke => Stroke.textOf unit stroke.1 stroke.2) =
      language.structureLines name := by
  rw [structureStrokes, List.map_map]
  exact List.map_id'' (fun line => Stroke.textOf_zero unit line) _

theorem map_validationStrokes (language : Language) (name : String) :
    (language.validationStrokes name).map
        (fun stroke => Stroke.textOf language.dialect.indentUnit stroke.1 stroke.2) =
      language.validationLines name := by
  cases language with
  | rust =>
      simp only [validationStrokes, validationLines, List.map_cons, List.map_nil,
        Stroke.textOf_zero]
      rfl
  | _ =>
      simp only [validationStrokes, validationLines, List.map_cons, List.map_nil,
        Stroke.textOf_zero]

/-- A declaration holds the lines that open its structure. -/
theorem structure_infix_declaration (language : Language) (options : Options) (d : Declaration) :
    (language.structureStrokes d.name).map (fun stroke => Stroke.line stroke.1 stroke.2) <:+:
      language.dialect.declaration options d := by
  cases language with
  | go => exact ⟨[.line 0 ("// " ++ Go.comment d)], _, rfl⟩
  | rust =>
      exact ⟨[.line 0 ("// " ++ Rust.comment d),
        .line 0 ("#[derive(" ++ Rust.conversions d.role ++ ", Debug, Clone)]")], _, rfl⟩
  | typescript => exact ⟨TypeScript.comment 0 (TypeScript.summary d), _, rfl⟩
  | ruby => exact List.nil_infix

theorem validation_infix_validation (language : Language) (d : Declaration) (plan : Plan) :
    (language.validationStrokes d.name).map (fun stroke => Stroke.line stroke.1 stroke.2) <:+:
      language.dialect.validation d plan := by
  cases language with
  | go => exact ⟨[.line 0 "// Validate implementation."], _, rfl⟩
  | rust => exact ⟨[.line 0 "// Validate implementation."], _, rfl⟩
  | typescript =>
      exact ⟨TypeScript.comment 0 s!"validate{d.name} checks value, applying defaults in place.",
        _, rfl⟩
  | ruby => exact List.nil_infix

theorem ne_empty_structureLines : ∀ line ∈ language.structureLines name, line ≠ "" := by
  cases language <;> simp [structureLines]

theorem ne_empty_validationLines : ∀ line ∈ language.validationLines name, line ≠ "" := by
  cases language <;> simp [validationLines]

/-- The opening lines of a structure are lines where its name is on one. -/
theorem notMem_structureLines (hname : '\n' ∉ name.toList) :
    ∀ line ∈ language.structureLines name, '\n' ∉ line.toList := by
  cases language <;>
    simp only [structureLines, List.forall_mem_cons, List.not_mem_nil, false_implies, implies_true,
      and_true, Text.notMem_append, hname, not_false_eq_true] <;> decide

/-- The opening lines of a validation are lines where its names are on one. -/
theorem notMem_validationLines (hname : '\n' ∉ name.toList)
    (hreceiver : '\n' ∉ (Go.receiver name).toList) :
    ∀ line ∈ language.validationLines name, '\n' ∉ line.toList := by
  cases language <;>
    simp only [validationLines, List.forall_mem_cons, List.not_mem_nil, false_implies, implies_true,
      and_true, Text.notMem_append, hname, hreceiver, not_false_eq_true] <;> decide

/-- The structure of a declaration is written. -/
theorem hasLines_structure (hd : d ∈ outline.declarations)
    (hname : ∀ c ∈ d.name.toList, Name.isWordChar c = true) :
    Text.HasLines
      (Draft.render language.dialect.indentUnit (language.dialect.draft options schema outline))
      (language.structureLines d.name) := by
  have hfeed : '\n' ∉ d.name.toList := fun hc => absurd (hname _ hc) (by decide)
  apply Draft.infix_render _ (map_structureStrokes _ language d.name)
  · exact fun line hline => ne_empty_structureLines line (List.mem_of_getLast? hline)
  · exact notMem_structureLines hfeed
  · exact (structure_infix_declaration language options d).trans
      (Dialect.declaration_infix_draft hd)

/-- The validation of a declaration is written, if it has one. -/
theorem hasLines_validation (hd : d ∈ outline.declarations) (hrules : d.rules.isSome)
    (hname : ∀ c ∈ d.name.toList, Name.isWordChar c = true) :
    Text.HasLines
      (Draft.render language.dialect.indentUnit (language.dialect.draft options schema outline))
      (language.validationLines d.name) := by
  obtain ⟨plan, hplan⟩ := Option.isSome_iff_exists.1 hrules
  have hfeed : '\n' ∉ d.name.toList := fun hc => absurd (hname _ hc) (by decide)
  apply Draft.infix_render _ (map_validationStrokes language d.name)
  · exact fun line hline => ne_empty_validationLines line (List.mem_of_getLast? hline)
  · exact notMem_validationLines hfeed (Go.notMem_receiver hname)
  · exact (validation_infix_validation language d plan).trans
      (Dialect.validation_infix_draft hd hplan)

end Language

/-! ## What is named is declared -/

/-- A declaration stands for some fields in some role. -/
structure Declaration.StandsFor (d : Declaration) (role : DeclarationRole) (fields : List Field) :
    Prop where
  role : d.role = role
  fields : d.members.map (·.field) = fields

/-- All that the declarations and stubs of an outline name is declared in it. -/
structure Outline.Closed (schema : Schema) (language : Language) (outline : Outline) : Prop where
  /-- At the base of the type of a member stands a primitive type or a declared structure. -/
  members : ∀ d ∈ outline.declarations, ∀ m ∈ d.members, ∃ base,
    m.type = language.fieldType base m.field ∧
      ((∃ kind, m.field.type.core = .primitive kind ∧
          language.primitives.lookup kind = some base) ∨
        ∃ type ∈ schema.types, m.field.type.core = .reference type.name ∧
          ∃ d' ∈ outline.declarations,
            d'.StandsFor (.type type.description) type.properties ∧ d'.name = base)
  /-- The elements of a member are validated as a declared structure validates its
  values; it is the structure that the type of the member names, where no field
  overwrites another. -/
  elements : ∀ d ∈ outline.declarations, ∀ plan, d.rules = some plan →
    ∀ entry ∈ d.ruled plan, ∀ name, Step.elements name ∈ entry.2 →
      ∃ type ∈ schema.types, type.name = name ∧ ∃ d' ∈ outline.declarations,
        d'.StandsFor (.type type.description) type.properties ∧ d'.rules.isSome ∧
          language.casing .declaration name = d'.name ∧
            ((d.members.map (·.field.name)).Nodup →
              entry.1.field.type = .array (.reference name) ∧
                entry.1.type = language.fieldType d'.name entry.1.field)
  /-- The input that a stub takes is a declared structure of the method's inputs. -/
  inputs : ∀ s ∈ outline.stubs, ∀ name, s.input = some name →
    ∃ d ∈ outline.declarations, d.StandsFor .input s.method.inputs ∧ d.name = name
  /-- The output that a stub gives is a declared structure of the method's outputs. -/
  outputs : ∀ s ∈ outline.stubs, ∀ name, s.output = some name →
    ∃ d ∈ outline.declarations, d.StandsFor .output s.method.outputs ∧ d.name = name

namespace Emitter

variable {language : Language} {schema : Schema} {options : Options} {e : Emitter}
  {outline : Outline} {subject : Subject} {d : Declaration} {name identifier : String}

/-- The scope of declarations grants names in the casing of declarations. -/
theorem identifier_of_declarationName (h : create language schema options = .ok e)
    (hname : e.declarationName name = .ok identifier) :
    language.identifier .declaration name = .ok identifier :=
  identifier_of_claimed h (by decide : Role.declaration ≠ .field) hname

/-- The scope of methods grants names in the casing of methods. -/
theorem identifier_of_methodName (hcreate : create language schema options = .ok e)
    (h : e.methodName name = .ok identifier) :
    language.identifier .method name = .ok identifier :=
  identifier_of_claimed hcreate (by decide : Role.method ≠ .field) h

/-- A method is named by the casing of its name. -/
theorem casing_of_methodName (hcreate : create language schema options = .ok e)
    (h : e.methodName name = .ok identifier) : language.casing .method name = identifier :=
  Language.casing_of_identifier (identifier_of_methodName hcreate h)

/-- What declares a subject stands for its role and its fields. -/
theorem Declares.standsFor (h : e.Declares subject d) : d.StandsFor subject.role subject.fields :=
  ⟨h.role, map_field_of_members h.members⟩

/-- Declarations are called by words. -/
theorem Declares.isWordChar (h : e.Declares subject d)
    (hcreate : create language schema options = .ok e) :
    ∀ c ∈ d.name.toList, Name.isWordChar c = true := by
  rw [← Language.casing_of_identifier (identifier_of_declarationName hcreate h.name)]
  exact fun c hc => Language.isWordChar_of_declaration hc

/-- The members of a declaration are those of its fields. -/
theorem Declares.hasMember (h : e.Declares subject d) {m : Member} (hm : m ∈ d.members) :
    m.field ∈ subject.fields ∧ e.HasMember subject.owner m.field m := by
  obtain ⟨field, hfield, hof⟩ := exists_left_of_forall₂ (members_eq_ok h.members) hm
  obtain rfl := hof.source
  exact ⟨hfield, hof⟩

/-- A declared type is declared in the document. -/
theorem exists_declares (h : List.Forall₂ e.Declares schema.subjects outline.declarations)
    {type : ObjectType} (htype : type ∈ schema.types) :
    ∃ d ∈ outline.declarations, e.Declares (.ofType type) d :=
  exists_right_of_forall₂ h (List.mem_append_left _ (List.mem_map_of_mem htype))

/-- An array of references, by its shape. -/
theorem type_of_elementTarget? {field : Field} {target : String} (hshape : field.type.HasShape)
    (h : Schema.elementTarget? field = some target) :
    field.type = .array (.reference target) := by
  unfold Schema.elementTarget? at h
  split at h
  · next own items htype =>
    rw [htype] at hshape ⊢
    cases hshape with
    | array hitems =>
        cases hitems with
        | primitive => contradiction
        | reference found =>
            obtain rfl := Option.some.inj h
            rfl
        | array => contradiction
  · contradiction

/-- The elements that a plan validates are references to a declared type. -/
theorem elements_of_fieldSteps {owner : String} {field : Field} {steps : List Step}
    (hsteps : schema.fieldSteps owner field = .ok steps) (hmem : Step.elements name ∈ steps) :
    ∃ type ∈ schema.types, type.name = name ∧ Schema.elementTarget? field = some name := by
  obtain ⟨elements, helements, rfl⟩ := Schema.fieldSteps_eq_ok_iff.1 hsteps
  have hown : Step.elements name ∉ Schema.ownSteps field := by
    unfold Schema.ownSteps Schema.enumStep
    split <;> split <;> simp
  have hmem := (List.mem_append.1 hmem).resolve_left hown
  obtain ⟨-, rfl⟩ | ⟨type, htype, rfl⟩ := Schema.elementStep_eq_ok_iff.1 helements
  · contradiction
  · obtain ⟨target, htarget, hfound⟩ := Option.bind_eq_some_iff.1 htype
    obtain ⟨hmem', rfl⟩ := Schema.mem_types_of_findType? hfound
    obtain rfl : name = type.name := by simpa using hmem
    exact ⟨type, hmem', rfl, htarget⟩

section

variable (hcreate : create language schema options = .ok e)
  (hdeclares : List.Forall₂ e.Declares schema.subjects outline.declarations)
  (hshape : ∀ fields ∈ schema.fieldLists, ∀ field ∈ fields, field.type.HasShape)

include hcreate hdeclares

/-- A type is declared under its name in the casing of declarations. -/
theorem exists_standsFor {type : ObjectType} (htype : type ∈ schema.types) :
    ∃ d ∈ outline.declarations, d.StandsFor (.type type.description) type.properties ∧
      language.identifier .declaration type.name = .ok d.name ∧
        (options.validate = true → d.rules.isSome) := by
  obtain ⟨hlanguage, hschema, hoptions, -⟩ := (owns_of_create hcreate).1
  obtain ⟨d, hd, hof⟩ := exists_declares hdeclares htype
  refine ⟨d, hd, hof.standsFor, identifier_of_declarationName hcreate hof.name, ?_⟩
  intro hvalidate
  have hrules := hof.rules
  have hoptions : e.options = options := hoptions
  rw [← hoptions] at hvalidate
  simp only [hvalidate, Subject.ofType, Bool.and_self, if_true] at hrules
  obtain ⟨rules, hsome, -⟩ := hrules
  exact Option.isSome_of_mem hsome

include hshape

/-- The type of a member is a base with the marks of its field around it. -/
theorem base_of_member {m : Member} (hd : d ∈ outline.declarations) (hm : m ∈ d.members) :
    ∃ base, TypeSystem.IsBase language schema m.field.type base ∧
      m.type = language.fieldType base m.field := by
  obtain ⟨hlanguage, hschema, -⟩ := (owns_of_create hcreate).1
  obtain ⟨subject, hsubject, hof⟩ := exists_left_of_forall₂ hdeclares hd
  obtain ⟨hfield, hmember⟩ := hof.hasMember hm
  have htype := hmember.type
  rw [hlanguage, hschema] at htype
  exact TypeSystem.expressField_eq_ok
    (hshape _ (Schema.fields_mem_fieldLists hsubject) _ hfield) htype

/-- The base of a member's type is a primitive or a type that the document declares. -/
theorem closed_members {m : Member} (hd : d ∈ outline.declarations) (hm : m ∈ d.members) :
    ∃ base, m.type = language.fieldType base m.field ∧
      ((∃ kind, m.field.type.core = .primitive kind ∧
          language.primitives.lookup kind = some base) ∨
        ∃ type ∈ schema.types, m.field.type.core = .reference type.name ∧
          ∃ d' ∈ outline.declarations,
            d'.StandsFor (.type type.description) type.properties ∧ d'.name = base) := by
  obtain ⟨base, hbase, heq⟩ := base_of_member hcreate hdeclares hshape hd hm
  refine ⟨base, heq, hbase.imp_right ?_⟩
  rintro ⟨target, type, hcore, hfound, hidentifier⟩
  obtain ⟨hmem, rfl⟩ := Schema.mem_types_of_findType? hfound
  obtain ⟨d', hd', hof, hname, -⟩ := exists_standsFor hcreate hdeclares hmem
  exact ⟨type, hmem, hcore, d', hd', hof, Except.ok.inj (hname.symm.trans hidentifier)⟩

/-- The elements that a step descends into are of a type that the document declares. -/
theorem closed_elements {plan : Plan} {entry : Member × List Step}
    (hd : d ∈ outline.declarations) (hplan : d.rules = some plan) (hentry : entry ∈ d.ruled plan)
    (hmem : Step.elements name ∈ entry.2) :
    ∃ type ∈ schema.types, type.name = name ∧ ∃ d' ∈ outline.declarations,
      d'.StandsFor (.type type.description) type.properties ∧ d'.rules.isSome ∧
        language.casing .declaration name = d'.name ∧
          ((d.members.map (·.field.name)).Nodup →
            entry.1.field.type = .array (.reference name) ∧
              entry.1.type = language.fieldType d'.name entry.1.field) := by
  obtain ⟨-, hschema, hoptions, -⟩ := (owns_of_create hcreate).1
  obtain ⟨subject, hsubject, hof⟩ := exists_left_of_forall₂ hdeclares hd
  obtain ⟨hvalidate, hm, field, hfield, -, hsteps, hsource⟩ := hof.ruled hplan hentry
  -- The step names the type as the schema does, its declaration by the casing of that name.
  obtain ⟨type, htype, rfl, htarget⟩ := elements_of_fieldSteps hsteps hmem
  rw [hschema] at htype
  rw [hoptions] at hvalidate
  obtain ⟨d', hd', hof', hname, hvalidated⟩ := exists_standsFor hcreate hdeclares htype
  refine ⟨type, htype, rfl, d', hd', hof', hvalidated hvalidate,
    Language.casing_of_identifier hname, fun hnodup => ?_⟩
  have hnodup : (subject.fields.map (·.name)).Nodup := by
    rw [← map_field_of_members hof.members, List.map_map]
    exact hnodup
  have harray : entry.1.field.type = .array (.reference type.name) := by
    rw [hsource hnodup]
    exact type_of_elementTarget?
      (hshape _ (Schema.fields_mem_fieldLists hsubject) _ hfield) htarget
  refine ⟨harray, ?_⟩
  obtain ⟨base, hbase, heq⟩ := base_of_member hcreate hdeclares hshape hd hm
  rw [harray] at hbase
  rw [heq, hbase.eq_of_reference hname]

omit hcreate hshape in
/-- The structures that a stub names are declared. -/
theorem closed_stub {s : Stub} {method : Method} (hmethod : method ∈ schema.methods)
    (hcalls : e.Calls method s) :
    (∀ name, s.input = some name →
      ∃ d ∈ outline.declarations, d.StandsFor .input s.method.inputs ∧ d.name = name) ∧
    ∀ name, s.output = some name →
      ∃ d ∈ outline.declarations, d.StandsFor .output s.method.outputs ∧ d.name = name := by
  have hof {subject : Subject} {name : String} (hsubject : subject ∈ schema.subjects)
      (hname : e.declarationName subject.name = .ok name) :
      ∃ d ∈ outline.declarations, d.StandsFor subject.role subject.fields ∧ d.name = name := by
    obtain ⟨d, hd, hdeclared⟩ := exists_right_of_forall₂ hdeclares hsubject
    exact ⟨d, hd, hdeclared.standsFor, Except.ok.inj (hdeclared.name.symm.trans hname)⟩
  obtain rfl := hcalls.source
  constructor
  · intro name hinput
    have hinputs := hcalls.takes.1 (Option.isSome_of_mem hinput)
    exact hof (Schema.ofInput_mem_subjects hmethod hinputs) (hcalls.input name hinput)
  · intro name houtput
    have houtputs := hcalls.gives.1 (Option.isSome_of_mem houtput)
    exact hof (Schema.ofOutput_mem_subjects hmethod houtputs) (hcalls.output name houtput)

end

/-- Where types are written, each subject of the schema is declared in its turn. -/
theorem declares_of_create (hcreate : create language schema options = .ok e)
    (htypes : options.includeTypes = true) (houtline : e.outline.outcome = .ok outline) :
    List.Forall₂ e.Declares schema.subjects outline.declarations := by
  obtain ⟨-, hschema, hoptions, -⟩ := (owns_of_create hcreate).1
  have hschema : e.schema = schema := hschema
  have hoptions : e.options = options := hoptions
  rw [← hschema]
  exact declares_outline houtline (hoptions ▸ htypes)

/-- The outline of a document is closed, and the declared names are words. -/
theorem closed_outline (hcreate : create language schema options = .ok e)
    (htypes : options.includeTypes = true) (houtline : e.outline.outcome = .ok outline)
    (hshape : ∀ fields ∈ schema.fieldLists, ∀ field ∈ fields, field.type.HasShape) :
    outline.Closed schema language ∧
      ∀ d ∈ outline.declarations, ∀ c ∈ d.name.toList, Name.isWordChar c = true := by
  have hschema : e.schema = schema := (owns_of_create hcreate).1.schema
  obtain ⟨-, hstubs⟩ := outline_eq_ok houtline
  have hdeclares := declares_of_create hcreate htypes houtline
  have hstub : ∀ s ∈ outline.stubs, ∃ method ∈ schema.methods, e.Calls method s := by
    intro s hs
    split at hstubs
    · rw [← hschema]
      exact exists_left_of_forall₂ (calls_of_stubs hstubs).2 hs
    · rw [← Except.ok.inj hstubs] at hs
      contradiction
  refine ⟨⟨?_, ?_, ?_, ?_⟩, ?_⟩
  · intro d hd m hm
    exact closed_members hcreate hdeclares hshape hd hm
  · intro d hd plan hplan entry hentry name hmem
    exact closed_elements hcreate hdeclares hshape hd hplan hentry hmem
  · intro s hs
    obtain ⟨method, hmethod, hof⟩ := hstub s hs
    exact (closed_stub hdeclares hmethod hof).1
  · intro s hs
    obtain ⟨method, hmethod, hof⟩ := hstub s hs
    exact (closed_stub hdeclares hmethod hof).2
  · intro d hd c hc
    obtain ⟨subject, -, hof⟩ := exists_left_of_forall₂ hdeclares hd
    exact hof.isWordChar hcreate c hc

end Emitter

/-! ## Documents -/

namespace Schema

variable {schema : Schema} {settings : Settings} {target : Target} {document : String}

/-- There is a document just where references resolve and the emitter has an outline,
and it is written from this outline. -/
theorem generate_eq_ok_iff (htarget : Target.ofName? settings.target = some target) :
    (schema.generate settings).outcome = .ok document ↔
      schema.checkReferences = .ok () ∧ ∃ e outline,
        Emitter.create target.language schema (settings.options schema target) = .ok e ∧
        e.outline.outcome = .ok outline ∧
        document = Draft.render target.language.dialect.indentUnit
          (target.language.dialect.draft (settings.options schema target) schema outline) := by
  simp only [generate, htarget, Emitter.document, Noted.outcome_bind, Noted.outcome_lift,
    Noted.outcome_note, Noted.outcome_mapError, Noted.outcome_mapNotices, Noted.outcome_pure,
    bind_eq_ok_iff, mapError_eq_ok_iff, Except.ok.injEq]
  constructor
  · rintro ⟨_, hreferences, _, -, e, he, written, ⟨outline, houtline, rfl⟩, _, -, rfl⟩
    obtain ⟨hlanguage, hschema, hoptions, -⟩ := (Emitter.owns_of_create he).1
    refine ⟨hreferences, e, outline, he, houtline, ?_⟩
    rw [hlanguage, hschema, hoptions]
    rfl
  · rintro ⟨hreferences, e, outline, he, houtline, rfl⟩
    obtain ⟨hlanguage, hschema, hoptions, -⟩ := (Emitter.owns_of_create he).1
    refine ⟨(), hreferences, (), trivial, e, he, _, ⟨outline, houtline, rfl⟩, (), trivial, ?_⟩
    rw [hlanguage, hschema, hoptions]
    rfl

end Schema

end RpcBindings
