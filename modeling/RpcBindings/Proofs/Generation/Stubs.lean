import RpcBindings.Proofs.Generation.Comments
import RpcBindings.Proofs.Generation.Declared

/-!
# RpcBindings.Proofs.Generation.Stubs

Stubs and methods.  A document with a client has one stub for each method, in the order
of the methods.  The scope of methods keeps their functions apart, and apart from what
the client defines besides.  The code of a stub stands in the document as it is drafted,
whatever is said above it.  A stub takes what its method takes and decodes what its
method gives, as the structures that are declared for just this method
(`generate_stubs`).
-/

namespace RpcBindings

/-- A stub is the one of a method: its function is called by the name of the method, it takes an
input where the method has inputs, and decodes an output where the method has outputs. -/
structure Stub.Serves (s : Stub) (language : Language) (method : Method) : Prop where
  source : s.method = method
  function : language.identifier .method method.name = .ok s.function
  input : s.input.isSome ↔ method.inputs ≠ []
  output : s.output.isSome ↔ method.outputs ≠ []

/-- The declarations stand for the subjects of the schema in turn, and the stubs name those that
stand for the input and the output of their own methods. -/
structure Outline.Linked (outline : Outline) (schema : Schema) : Prop where
  declarations : List.Forall₂ (fun subject d => d.StandsFor subject.role subject.fields)
    schema.subjects outline.declarations
  input : ∀ s ∈ outline.stubs, ∀ name, s.input = some name →
    ∃ d, (Subject.ofInput s.method, d) ∈ schema.subjects.zip outline.declarations ∧ d.name = name
  output : ∀ s ∈ outline.stubs, ∀ name, s.output = some name →
    ∃ d, (Subject.ofOutput s.method, d) ∈ schema.subjects.zip outline.declarations ∧ d.name = name

namespace Emitter

variable {language : Language} {schema : Schema} {options : Options} {e : Emitter}
  {outline : Outline} {method : Method} {s : Stub} {name identifier : String}

/-! ## One stub -/

/-- The stub that calls a method serves it. -/
theorem Calls.serves (h : e.Calls method s) (hcreate : create language schema options = .ok e) :
    s.Serves language method :=
  ⟨h.source, identifier_of_methodName hcreate h.function, h.takes, h.gives⟩

/-- No stub has a function that the document defines besides. -/
theorem Calls.function_notMem_reserved (h : e.Calls method s)
    (hcreate : create language schema options = .ok e) (hmethod : method ∈ schema.methods) :
    s.function ∉ language.reserved options .method := by
  obtain ⟨found, howns, hfound⟩ := owns_method hcreate hmethod
  obtain rfl : found = s.function := Except.ok.inj (hfound.symm.trans h.function)
  exact notMem_reserved hcreate (by decide : Role.method ≠ .field) howns

/-! ## All stubs -/

section

variable (hcalls : List.Forall₂ e.Calls schema.methods outline.stubs)
include hcalls

/-- Stubs have distinct functions. -/
theorem nodup_functions (hcreate : create language schema options = .ok e) :
    (outline.stubs.map (·.function)).Nodup := by
  have hfunctions : schema.methods.mapM (fun method => e.methodName method.name) =
      .ok (outline.stubs.map (·.function)) := by
    rw [mapM_eq_ok_iff, List.forall₂_map_right_iff]
    exact hcalls.imp fun _ _ hof => hof.function
  rw [nodup_iff_of_mapM hfunctions fun _ hmethod _ hother _ =>
    methodName_inj hcreate hmethod hother]
  exact schema.methodNames_nodup.of_map _

/-- Stubs name what is declared for their own methods. -/
theorem linked_of_declares
    (hdeclares : List.Forall₂ e.Declares schema.subjects outline.declarations) :
    outline.Linked schema := by
  have hown {s : Stub} (hs : s ∈ outline.stubs) :
      s.method ∈ schema.methods ∧ e.Calls s.method s := by
    obtain ⟨method, hmethod, hof⟩ := exists_left_of_forall₂ hcalls hs
    obtain rfl := hof.source
    exact ⟨hmethod, hof⟩
  have hnamed {subject : Subject} {name : String} (hsubject : subject ∈ schema.subjects)
      (hname : e.declarationName subject.name = .ok name) :
      ∃ d, (subject, d) ∈ schema.subjects.zip outline.declarations ∧ d.name = name := by
    obtain ⟨d, hd, hof⟩ := exists_mem_zip_of_forall₂ hdeclares hsubject
    exact ⟨d, hd, Except.ok.inj (hof.name.symm.trans hname)⟩
  refine ⟨hdeclares.imp fun _ _ hof => hof.standsFor, ?_, ?_⟩
  · intro s hs name hinput
    obtain ⟨hmethod, hof⟩ := hown hs
    have hinputs := hof.takes.1 (Option.isSome_of_mem hinput)
    exact hnamed (Schema.ofInput_mem_subjects hmethod hinputs) (hof.input name hinput)
  · intro s hs name houtput
    obtain ⟨hmethod, hof⟩ := hown hs
    have houtputs := hof.gives.1 (Option.isSome_of_mem houtput)
    exact hnamed (Schema.ofOutput_mem_subjects hmethod houtputs) (hof.output name houtput)

end

end Emitter

/-! ## Lines -/

namespace Language

variable {language : Language} {options : Options} {schema : Schema} {outline : Outline} {s : Stub}

/-- The lines of the code of a stub as they are drafted. -/
def codeLines (language : Language) (s : Stub) : List String :=
  (language.stubCode s).spread language.dialect.indentUnit

/-- The lines of a stub as they are drafted, comments included. -/
def stubLines (language : Language) (s : Stub) : List String :=
  (language.dialect.stub s).spread language.dialect.indentUnit

/-- The code of a stub ends with a brace or a word. -/
theorem exists_stubCode_eq (hlanguage : language ≠ .go) (s : Stub) :
    ∃ front depth text, language.stubCode s = front ++ [.line depth text] ∧ text ≠ "" := by
  cases language with
  | go => contradiction
  | ruby => exact ⟨_, 2, "end", (List.append_assoc [_] _ _).symm, by decide⟩
  | _ => exact ⟨_, 1, "\x7d", rfl, by decide⟩

/-- Each stub of an outline stands in the draft. -/
theorem stub_infix_draft (hclient : options.includeClient = true) (hs : s ∈ outline.stubs) :
    language.dialect.stub s <:+: language.dialect.draft options schema outline := by
  obtain ⟨before, after, heq⟩ := List.append_of_mem hs
  rw [Dialect.draft, if_pos hclient, Dialect.client, heq, List.flatMap_append, List.flatMap_cons]
  refine List.IsInfix.trans ?_ (List.suffix_append _ _).isInfix
  refine ⟨language.dialect.clientHead options ++ before.flatMap language.dialect.stub,
    after.flatMap language.dialect.stub ++ language.dialect.clientTail, ?_⟩
  simp only [List.append_assoc]

section

variable (hlanguage : language ≠ .go) (hclient : options.includeClient = true)
  (hs : s ∈ outline.stubs) (h : s.IsPlain)
  (hname : language = .rust ∨ '\n' ∉ s.method.name.toList)
include hlanguage hclient hs h hname

/-- The code of a stub is written as it is drafted, whatever the comments above it say. -/
theorem hasLines_stubCode :
    Text.HasLines
      (Draft.render language.dialect.indentUnit (language.dialect.draft options schema outline))
      (language.codeLines s) := by
  obtain ⟨front, depth, text, heq, htext⟩ := exists_stubCode_eq hlanguage s
  refine hasLines_of_straight (straight_stubCode h hname) heq htext ?_
  refine List.IsInfix.trans ?_ (stub_infix_draft hclient hs)
  rw [stub_eq hlanguage]
  exact (List.suffix_append _ _).isInfix

/-- So are these comments, if their texts stay on one line. -/
theorem hasLines_stub (htexts : ∀ text ∈ language.stubTexts s, '\n' ∉ text.toList) :
    Text.HasLines
      (Draft.render language.dialect.indentUnit (language.dialect.draft options schema outline))
      (language.stubLines s) := by
  obtain ⟨front, depth, text, heq, htext⟩ := exists_stubCode_eq hlanguage s
  have hstraight : (language.dialect.stub s).Straight := by
    rw [stub_eq hlanguage, Draft.straight_append, Draft.straight_append]
    refine ⟨⟨?_, straight_stubRemarks htexts⟩, straight_stubCode h hname⟩
    exact Draft.straight_line.2 ⟨by simp, Draft.straight_nil⟩
  have hlast : language.dialect.stub s = [Draft.emptyLine] ++
      language.stubRemarks (language.stubTexts s) ++ front ++ [.line depth text] := by
    rw [stub_eq hlanguage, heq, ← List.append_assoc]
  exact hasLines_of_straight hstraight hlast htext (stub_infix_draft hclient hs)

end

end Language

/-! ## Documents -/

/-- Clients come with declarations, but for those in Ruby. -/
theorem Target.includeTypes_iff {target : Target} {name : String}
    (htarget : ofName? name = some target) (hclient : target.includeClient = true) :
    target.includeTypes = true ↔ target.language ≠ .ruby := by
  have hall : ∀ target ∈ all, target.includeClient = true →
      (target.includeTypes = true ↔ target.language ≠ .ruby) := by decide
  exact hall target (List.mem_of_find?_eq_some htarget) hclient

namespace Schema

variable {schema : Schema} {settings : Settings} {target : Target} {document : String}

/-- **Stubs are one to one with methods.**  The lines of a document with a client are those in
front of its client, then those that clients begin with, those of one stub for each method in
turn, and those that clients end with.  The functions of stubs are distinct, and nothing that the
client defines besides.  The code of a stub stands in the document line by line, whatever methods
are described like, and its comments do where they stay on one line.  A stub has a parameter where
its method has inputs and decodes a result where it has outputs; in Rust and TypeScript these are
the structures that are declared for the input and the output of just this method. -/
theorem generate_stubs (htarget : Target.ofName? settings.target = some target)
    (hclient : target.includeClient = true)
    (h : (schema.generate settings).outcome = .ok document) :
    ∃ outline,
      document = String.join
        ((target.language.frontLines (settings.options schema target) schema outline ++
          target.language.clientLines (settings.options schema target) outline.stubs).map
            (· ++ "\n")) ∧
      List.Forall₂ (fun method s => s.Serves target.language method)
        schema.methods outline.stubs ∧
      (outline.stubs.map (·.function)).Nodup ∧
      (∀ s ∈ outline.stubs, s.function ∉ target.language.clientMembers ∧
        target.language.dialect.stub s = [Draft.emptyLine] ++
          target.language.stubRemarks (target.language.stubTexts s) ++
            target.language.stubCode s ∧
        (target.language = .rust ∨ '\n' ∉ s.method.name.toList →
          Text.HasLines document (target.language.codeLines s) ∧
          ((∀ text ∈ target.language.stubTexts s, '\n' ∉ text.toList) →
            Text.HasLines document (target.language.stubLines s)))) ∧
      (target.language ≠ .ruby → outline.Linked schema ∧
        ∀ d ∈ outline.declarations,
          Text.HasLines document (target.language.structureLines d.name)) := by
  obtain ⟨-, e, outline, hcreate, houtline, rfl⟩ := (generate_eq_ok_iff htarget).1 h
  have hstubs := Emitter.stubs_eq hcreate rfl houtline
  rw [if_pos hclient] at hstubs
  obtain ⟨hgo, hstubs⟩ := hstubs
  have hdeclarations := Emitter.declarations_eq hcreate rfl houtline
  have htypes := Target.includeTypes_iff htarget hclient
  refine ⟨outline, ?_, ?_, ?_, ?_, ?_⟩
  · refine Language.render_draft_client hgo hclient fun hruby => ?_
    rwa [if_neg fun hinclude => htypes.1 hinclude hruby] at hdeclarations
  · exact hstubs.imp fun _ _ hof => hof.serves hcreate
  · exact Emitter.nodup_functions hstubs hcreate
  · intro s hs
    obtain ⟨method, hmethod, hof⟩ := exists_left_of_forall₂ hstubs hs
    have hplain := hof.isPlain hcreate
    refine ⟨fun hmember => ?_, Language.stub_eq hgo s, fun hname => ⟨?_, fun htexts => ?_⟩⟩
    · exact hof.function_notMem_reserved hcreate hmethod
        (Language.clientMembers_subset_reserved _ hclient hmember)
    · exact Language.hasLines_stubCode hgo hclient hs hplain hname
    · exact Language.hasLines_stub hgo hclient hs hplain hname htexts
  · intro hruby
    have hdeclares := Emitter.declares_of_create hcreate (htypes.2 hruby) houtline
    refine ⟨Emitter.linked_of_declares hstubs hdeclares, fun d hd => ?_⟩
    obtain ⟨subject, -, hof⟩ := exists_left_of_forall₂ hdeclares hd
    exact Language.hasLines_structure hd (hof.isWordChar hcreate)

/-- A schema with methods that are called like the texts that reserve identifiers. -/
def orchard : Schema where
  name := "orchard"
  description := ""
  types := trees.types
  methods := [
    { name := "plant"
      description := ""
      inputs := [
        { name := "trees", type := .array (.reference "Node"), description := "", required := true
          default := .null, enum := none }]
      outputs := [
        { name := "root", type := .reference "Node", description := "", required := false
          default := .null, enum := none }] },
    { name := "call (generated)"
      description := ""
      inputs := [
        { name := "root", type := .reference "Node", description := "", required := false
          default := .null, enum := none }]
      outputs := [] },
    { name := "new (generated)", description := "", inputs := [], outputs := [] }]
  goTags := []
  typeNames_nodup := trees.typeNames_nodup
  methodNames_nodup := by decide

theorem orchard_generate_stubs :
    ∃ document, (orchard.generate validatedClient).outcome = .ok document ∧ ∃ outline : Outline,
      document = String.join
        ((Language.rust.frontLines (validatedClient.options orchard .rustClient) orchard outline ++
          Language.rust.clientLines (validatedClient.options orchard .rustClient)
            outline.stubs).map (· ++ "\n")) ∧
      List.Forall₂ (fun method s => s.Serves .rust method) orchard.methods outline.stubs ∧
      (outline.stubs.map (·.function)).Nodup ∧
      (∀ s ∈ outline.stubs, s.function ∉ ["new", "call"] ∧
        Text.HasLines document (Language.rust.codeLines s)) ∧
      outline.Linked orchard := by
  have htarget : Target.ofName? validatedClient.target = some Target.rustClient := rfl
  obtain ⟨document, hdocument⟩ :
      ∃ document, (orchard.generate validatedClient).outcome = .ok document :=
    ⟨_, (generate_eq_ok_iff htarget).2 ⟨by decide, _, _, rfl, rfl, rfl⟩⟩
  obtain ⟨outline, hlines, hserves, hnodup, hstubs, hlinked⟩ :=
    generate_stubs htarget rfl hdocument
  refine ⟨document, hdocument, outline, hlines, hserves, hnodup, fun s hs => ?_,
    (hlinked (by decide)).1⟩
  obtain ⟨hfunction, -, hcode⟩ := hstubs s hs
  exact ⟨hfunction, (hcode (.inl rfl)).1⟩

end Schema

end RpcBindings
