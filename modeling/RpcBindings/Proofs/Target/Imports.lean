import RpcBindings.Proofs.Target.Unquoted

/-!
# RpcBindings.Proofs.Target.Imports

The imports in documents of Go and Rust.  Only headers are written with imports.  But a
text that stands without quotes goes on behind a line feed with lines of its own, and if
one of them begins like an import, then it is one.  So what a document imports is what
its header does, and what strays from these texts (`importsOf_draft`).
-/

namespace RpcBindings

namespace Language

/-- What the lines of a text import. -/
def importsOf (language : Language) (text : String) : List (List Char) :=
  Text.statementsOf language.importWord text

/-- What the later lines of a text import. -/
def straysOf (language : Language) (text : String) : List (List Char) :=
  Text.straysOf language.importWord text

/-- What stands in the lines of a declaration and its validation without quotes. -/
def unquoted (language : Language) (options : Options) (d : Declaration) : List String :=
  language.unquotedDeclaration options d ++
    match d.rules with
    | none => []
    | some plan => language.unquotedRules d plan

end Language

/-- What stands in the lines of a document without quotes, header apart. -/
def Outline.unquoted (outline : Outline) (options : Options) (language : Language) : List String :=
  outline.declarations.flatMap (language.unquoted options) ++
    if options.includeClient then outline.stubs.map (·.method.description) else []

/-- What a document imports besides its header. -/
def Outline.strays (outline : Outline) (options : Options) (language : Language) :
    List (List Char) :=
  (outline.unquoted options language).flatMap language.straysOf

/-- Texts of one line import nothing. -/
theorem Outline.strays_eq_nil {outline : Outline} {options : Options} {language : Language}
    (h : ∀ text ∈ outline.unquoted options language, '\n' ∉ text.toList) :
    outline.strays options language = [] :=
  List.flatMap_eq_nil_iff.2 fun text htext => Text.straysOf_of_notMem (h text htext)

variable {d : Declaration} {options : Options} {schema : Schema} {language : Language}

/-! ## Declarations and stubs -/

namespace Language

/-- What comes in pieces strays in pieces. -/
theorem flatMap_straysOf {α : Type} (language : Language) (xs : List α)
    (texts : α → List String) :
    (xs.flatMap texts).flatMap language.straysOf =
      xs.flatMap fun x => (texts x).flatMap language.straysOf :=
  List.flatMap_assoc

/-- What a declaration imports strays from its texts. -/
theorem statements_part (hlanguage : language = .go ∨ language = .rust)
    (h : d.IsPlain language) (options : Options) :
    (language.dialect.part options d).statements language.importWord =
      (language.unquoted options d).flatMap language.straysOf := by
  have hword := language.importWord_ne_nil
  have hdeclaration : (language.dialect.declaration options d).statements language.importWord =
      (language.unquotedDeclaration options d).flatMap language.straysOf :=
    (carries_declaration hlanguage h options).statements_eq hword
  rw [Dialect.part, Draft.statements_append, Draft.statements_append, hdeclaration,
    Draft.statements_gap, Draft.statements_nil, List.append_nil, unquoted, List.flatMap_append]
  congr 1
  cases d.rules with
  | none => rfl
  | some plan =>
      simp only [Draft.statements_append, Draft.statements_gap, Draft.statements_nil,
        List.append_nil]
      exact (carries_validation hlanguage h plan).statements_eq hword

end Language

namespace Rust

/-- The comment above a stub stands without quotes. -/
theorem statements_stubRemarks {s : Stub} (hfunction : '\n' ∉ s.function.toList) :
    (Language.rust.stubRemarks (Language.rust.stubTexts s)).statements Language.rust.importWord =
      Language.rust.straysOf s.method.description := by
  have hfront : Language.rust.Apart ("// " ++ (s.function ++ " ")) :=
    Text.Apart.append (by decide) (Text.notMem_append.2 ⟨hfunction, by decide⟩)
  rw [Language.stubRemarks, Language.stubTexts]
  split
  · next hempty =>
    rw [String.isEmpty_iff.1 hempty]
    exact (Text.straysOf_of_notMem (by decide)).symm
  · rw [List.map_singleton, ← String.append_assoc, Draft.statements_line,
      hfront.statementsOf_append, Draft.statements_nil, List.append_nil]
    rfl

/-- The only import lines of a Rust stub are those that stray from the description of its method. -/
theorem statements_stub {s : Stub} (h : s.IsPlain) :
    (stub s).statements Language.rust.importWord =
      Language.rust.straysOf s.method.description := by
  have hstub : stub s = [Draft.emptyLine] ++
      Language.rust.stubRemarks (Language.rust.stubTexts s) ++ Language.rust.stubCode s :=
    @Language.stub_eq .rust (by decide) s
  have hcode : (Language.rust.stubCode s).statements Language.rust.importWord = [] :=
    (carries_stubCode h).statements_eq Language.rust.importWord_ne_nil
  rw [hstub, Draft.statements_append, Draft.statements_append,
    Draft.statements_emptyLine Language.rust.importWord_ne_nil, Draft.statements_nil,
    List.nil_append, statements_stubRemarks h.function, hcode, List.append_nil]

/-- The only import lines of a Rust client are those that stray from the descriptions of the
methods. -/
theorem statements_client {stubs : List Stub} (h : ∀ s ∈ stubs, s.IsPlain) :
    (dialect.client options stubs).statements Language.rust.importWord =
      stubs.flatMap fun s => Language.rust.straysOf s.method.description := by
  have hword := Language.rust.importWord_ne_nil
  have hhead : (dialect.clientHead options).statements Language.rust.importWord = [] :=
    Draft.statements_ready_apart hword (by decide +kernel)
  have hcall : (Draft.ready call).statements Language.rust.importWord = [] :=
    Draft.statements_ready_apart hword (by decide +kernel)
  have herror : (Draft.ready errorHandling).statements Language.rust.importWord = [] :=
    Draft.statements_ready_apart hword (by decide +kernel)
  have htail : dialect.clientTail.statements Language.rust.importWord = [] := by
    rw [dialect, Draft.statements_append, Draft.statements_append, hcall, herror,
      Draft.statements_emptyLine hword]
    rfl
  rw [Dialect.client, Draft.statements_append, Draft.statements_append, Draft.statements_flatMap]
  rw [hhead, htail, List.nil_append, List.append_nil]
  exact List.flatMap_congr fun s hs => statements_stub (h s hs)

end Rust

namespace Language

/-- What the header imports in Rust: with the clock, and with maps, or without. -/
def rustImports (clock maps : Bool) : List (List Char) :=
  (if maps then ["std::collections::HashMap;".toList] else []) ++
    (if clock then ["chrono::\x7bDateTime, Utc\x7d;".toList] else []) ++
    ["serde::\x7bDeserialize, Serialize\x7d;".toList]

/-- What a header imports.  In Go the clock stands in the list that the import opens. -/
def headerImports (options : Options) (clock maps : Bool) : Language → List (List Char)
  | .go => Language.go.straysOf options.package ++ ["(".toList]
  | .rust => rustImports clock maps
  | _ => []

/-- Maps are imported exactly in a header with maps. -/
theorem mem_rustImports_maps (clock maps : Bool) :
    "std::collections::HashMap;".toList ∈ rustImports clock maps ↔ maps = true := by
  cases clock <;> cases maps <;> decide +kernel

/-- Instants are imported exactly in a header with the clock. -/
theorem mem_rustImports_clock (clock maps : Bool) :
    "chrono::\x7bDateTime, Utc\x7d;".toList ∈ rustImports clock maps ↔ clock = true := by
  cases clock <;> cases maps <;> decide +kernel

/-- A header in Go makes the import lines that are listed for it. -/
theorem statements_goHeader (options : Options) (schema : Schema) (clock maps : Bool) :
    (Go.header options schema).statements Language.go.importWord =
      Language.go.headerImports options clock maps := by
  have hword := Language.go.importWord_ne_nil
  have hpackage : Language.go.Apart "package " := by decide
  have hnotice : Language.go.Apart ("// " ++ generatedNotice) := by decide
  have hclock : Draft.statements Language.go.importWord
      (if schema.usesKind .timestamp then [.line 1 "\"time\""] else []) = [] := by
    split <;> decide
  have hrest : Draft.statements Language.go.importWord
      ([.line 0 ")", Draft.emptyLine] ++ (Draft.ready Go.helpers ++ [Draft.emptyLine])) = [] := by
    decide +kernel
  have hfront : Draft.statements Language.go.importWord
      [.line 0 ("// " ++ generatedNotice), Draft.emptyLine,
        .line 0 ("package " ++ options.package), Draft.emptyLine, .line 0 "import (",
        .line 1 "\"fmt\""] = Language.go.straysOf options.package ++ ["(".toList] := by
    rw [Draft.statements_apart hnotice, Draft.statements_emptyLine hword, Draft.statements_line,
      hpackage.statementsOf_append]
    rfl
  rw [Go.header, List.append_assoc, List.append_assoc, List.append_assoc, Draft.statements_append,
    Draft.statements_append, hfront, hclock, hrest, List.append_nil, List.append_nil, headerImports]

/-- A header in Rust makes the import lines that are listed for it. -/
theorem statements_rustHeader (htypes : options.includeTypes = true) :
    (Rust.header options schema).statements Language.rust.importWord =
      Language.rust.headerImports options (schema.usesKind .timestamp)
        (schema.usesKind .object) := by
  rw [Rust.header, htypes, Bool.true_and, Bool.true_and, headerImports, rustImports]
  cases schema.usesKind .object <;> cases schema.usesKind .timestamp <;> decide +kernel

/-- **A document imports what its header does, and what strays.** -/
theorem importsOf_draft {outline : Outline} (hlanguage : language = .go ∨ language = .rust)
    (htypes : options.includeTypes = true)
    (hdeclarations : ∀ d ∈ outline.declarations, d.IsPlain language)
    (hstubs : ∀ s ∈ outline.stubs, s.IsPlain)
    (hclient : options.includeClient = true → language = .rust) :
    language.importsOf (Draft.render language.dialect.indentUnit
        (language.dialect.draft options schema outline)) =
      language.headerImports options (schema.usesKind .timestamp) (schema.usesKind .object) ++
        outline.strays options language := by
  have hheader : (language.dialect.header options schema).statements language.importWord =
      language.headerImports options (schema.usesKind .timestamp) (schema.usesKind .object) := by
    obtain rfl | rfl := hlanguage
    · exact statements_goHeader options schema _ _
    · exact statements_rustHeader htypes
  have hclientStrays : Draft.statements language.importWord
      (if options.includeClient then language.dialect.client options outline.stubs else []) =
        (if options.includeClient then outline.stubs.map (·.method.description)
          else []).flatMap language.straysOf := by
    split
    · next hinclude =>
      obtain rfl := hclient hinclude
      rw [List.flatMap_map]
      exact Rust.statements_client hstubs
    · rfl
  rw [importsOf, Draft.statementsOf_render language.importWord_ne_nil language.isIndent_indentUnit,
    Dialect.draft, Draft.statements_append, Draft.statements_append, hheader, hclientStrays,
    Draft.statements_flatMap, Outline.strays, Outline.unquoted, List.flatMap_append,
    flatMap_straysOf, List.append_assoc]
  congr 2
  exact List.flatMap_congr fun d hd => statements_part hlanguage (hdeclarations d hd) options

end Language

end RpcBindings
