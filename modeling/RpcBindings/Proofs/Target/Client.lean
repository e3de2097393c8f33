import RpcBindings.Proofs.Target.Comments
import RpcBindings.Proofs.Target.Spacing

/-!
# RpcBindings.Proofs.Target.Client

Clients as they are written.  A client has a stub for each method between lines that are
the same for all methods, and no method is called like what these lines define
(`clientMembers_subset_reserved`).  A stub is commented, and its code depends on the
names of its method, function, input and output alone (`stub_eq`).
-/

namespace RpcBindings

/-! ## Members -/

namespace Language

/-- What a client defines besides its stubs: the members of its class, and the function that the
stubs call. -/
def clientMembers : Language → List String
  | .go => []
  | .rust => ["new", "call"]
  | .typescript => ["constructor", "url", "authToken", "decoder", "call"]
  | .ruby => ["initialize", "call"]

/-- All of this is reserved. -/
theorem clientMembers_subset_reserved (language : Language) {options : Options}
    (h : options.includeClient = true) :
    language.clientMembers ⊆ language.reserved options .method := by
  cases language <;> simp only [reserved, h, if_true] <;> decide

/-- The lines in which a TypeScript client defines its members. -/
example :
    ["  constructor(params: \x7b url: string, authToken?: string \x7d) \x7b",
     "  private url: string", "  private authToken?: string",
     "  private decoder(key: string, value: any): any \x7b", "async function call("] ⊆
      TypeScript.clientClass ++ TypeScript.call := by
  decide +kernel

end Language

/-! ## Stubs -/

namespace Rust

/-- What a stub does. -/
def body (s : Stub) : Draft :=
  let payload := if s.input.isSome then "Some(json)" else "None"
  let invocation := "self.call(" ++ Literal.rust s.method.name ++ ", " ++ payload ++ ").await?;"
  (if s.input.isSome then [.line 2 "let json = serde_json::to_vec(input)?;"] else []) ++
  match s.output with
  | some name =>
    [.line 2 ("let res: bytes::Bytes = " ++ invocation),
     .line 2 ("let output: " ++ name ++ " = serde_json::from_slice(&res)?;"),
     .line 2 "Ok(output)"]
  | none => [.line 2 invocation, .line 2 "Ok(())"]

end Rust

namespace TypeScript

/-- The line that opens a stub. -/
def opening (s : Stub) : String :=
  let params := match s.input with
    | none => ""
    | some name => "params: " ++ name
  "async " ++ s.function ++ "(" ++ params ++ "): Promise<" ++ s.output.getD "void" ++ "> \x7b"

/-- What a stub does. -/
def body (s : Stub) : Draft :=
  let arguments := "this.url, this.authToken, " ++ Literal.singleQuoted s.method.name ++
    (if s.input.isSome then ", params" else "")
  match s.output with
  | some name =>
    [.line 2 ("const res = await call(" ++ arguments ++ ")"),
     .line 2 ("const out: " ++ name ++ " = JSON.parse(res, this.decoder)"),
     .line 2 "return out"]
  | none => [.line 2 ("await call(" ++ arguments ++ ")")]

end TypeScript

namespace Language

/-- The comments above a stub. -/
def stubRemarks (texts : List String) : Language → Draft
  | .go => []
  | .rust => texts.map fun text => .line 1 ("// " ++ text)
  | .typescript => texts.flatMap (TypeScript.comment 1)
  | .ruby => texts.map fun text => .line 2 ("#" ++ text)

/-- The code of a stub. -/
def stubCode (s : Stub) : Language → Draft
  | .go => []
  | .rust => .line 1 (Rust.signature s) :: Rust.body s ++ [.line 1 "\x7d"]
  | .typescript => .line 1 (TypeScript.opening s) :: TypeScript.body s ++ [.line 1 "\x7d"]
  | .ruby => .line 2 (Ruby.opening s) :: Ruby.body s

/-- What the comments above a stub say.  Rust puts the function in front of the description of the
method, if there is one, and TypeScript and Ruby have other words if there is none; Ruby goes on
with the parameters. -/
def stubTexts (s : Stub) : Language → List String
  | .go => []
  | .rust =>
    if s.method.description.isEmpty then [] else [s.function ++ " " ++ s.method.description]
  | .typescript =>
    [if (Text.capitalize s.method.description).isEmpty then
      s.function ++ " calls " ++ s.method.name ++ "."
     else Text.capitalize s.method.description]
  | .ruby => Ruby.comments s

/-- A stub stands behind an empty line and its comments. -/
theorem stub_eq {language : Language} (hlanguage : language ≠ .go) (s : Stub) :
    language.dialect.stub s =
      [Draft.emptyLine] ++ language.stubRemarks (language.stubTexts s) ++ language.stubCode s := by
  cases language with
  | go => contradiction
  | rust =>
      obtain ⟨function, method, input, output, parameters⟩ := s
      cases hdescription : method.description.isEmpty <;> cases input <;> cases output <;>
        simp [dialect, Rust.dialect, Rust.stub, stubTexts, stubRemarks, stubCode, Rust.body,
          hdescription, toString, String.append_assoc]
  | typescript =>
      obtain ⟨function, method, input, output, parameters⟩ := s
      cases input <;> cases output <;>
        simp [dialect, TypeScript.dialect, TypeScript.stub, stubTexts, stubRemarks, stubCode,
          TypeScript.opening, TypeScript.body, toString, String.append_assoc]
  | ruby =>
      simp only [dialect, Ruby.dialect, Ruby.stub_eq, Draft.commented, stubTexts, stubRemarks,
        stubCode, List.append_assoc, List.cons_append, List.nil_append]

/-! ## Documents with a client -/

variable {language : Language} {options : Options} {schema : Schema} {outline : Outline}

/-- The lines in front of a client: the header and the declarations. -/
def frontLines (language : Language) (options : Options) (schema : Schema) (outline : Outline) :
    List String :=
  (language.dialect.header options schema ++
    outline.declarations.flatMap (language.dialect.part options)).spread language.dialect.indentUnit

/-- The lines of a client: those in front of the stubs, those of each stub, and the rest. -/
def clientLines (language : Language) (options : Options) (stubs : List Stub) : List String :=
  (language.dialect.clientHead options).spread language.dialect.indentUnit ++
    stubs.flatMap (fun s => (language.dialect.stub s).spread language.dialect.indentUnit) ++
    language.dialect.clientTail.spread language.dialect.indentUnit

/-- The client part of a document has the lines that are named for it. -/
theorem spread_client (language : Language) (options : Options) (stubs : List Stub) :
    (language.dialect.client options stubs).spread language.dialect.indentUnit =
      language.clientLines options stubs := by
  rw [Dialect.client, Draft.spread_append, Draft.spread_append, Draft.spread_flatMap, clientLines]

/-- A client that wraps its stubs ends in a line of its own. -/
theorem exists_getLast?_clientLines (hlanguage : language ≠ .go) (stubs : List Stub) :
    ∃ line ∈ (language.clientLines options stubs).getLast?, line ≠ "" := by
  obtain ⟨line, hline, hne⟩ : ∃ line,
      (language.dialect.clientTail.spread language.dialect.indentUnit).getLast? = some line ∧
        line ≠ "" := by
    cases language with
    | go => contradiction
    | ruby => exact ⟨"end", by decide +kernel, by decide⟩
    | _ => exact ⟨"\x7d", by decide +kernel, by decide⟩
  refine ⟨line, ?_, hne⟩
  rw [clientLines, List.getLast?_append, hline]
  rfl

/-- A document with a client consists of these lines; in Ruby nothing is declared. -/
theorem render_draft_client (hlanguage : language ≠ .go) (hclient : options.includeClient = true)
    (hruby : language = .ruby → outline.declarations = []) :
    Draft.render language.dialect.indentUnit (language.dialect.draft options schema outline) =
      String.join ((language.frontLines options schema outline ++
        language.clientLines options outline.stubs).map (· ++ "\n")) := by
  have hparts : Draft.Spaced language.dialect.indentUnit
      (outline.declarations.flatMap (language.dialect.part options)) := by
    by_cases heq : language = .ruby
    · rw [hruby heq]
      exact Draft.spaced_nil _
    · exact Draft.Spaced.flatMap fun d _ => spaced_part heq
  have hheader : (language.dialect.header options schema).OnlyLines := onlyLines_header
  have hspaced := (hheader.spaced.append hparts).append
    (spaced_client language options outline.stubs)
  have hlines : (language.dialect.header options schema ++
      outline.declarations.flatMap (language.dialect.part options) ++
        language.dialect.client options outline.stubs).spread language.dialect.indentUnit =
      language.frontLines options schema outline ++ language.clientLines options outline.stubs := by
    rw [Draft.spread_append, spread_client]
    rfl
  rw [Dialect.draft, hclient, if_pos rfl, hspaced.render_eq, hlines]
  obtain ⟨line, hline, hne⟩ := exists_getLast?_clientLines hlanguage outline.stubs
  refine ⟨line, ?_, hne⟩
  rw [hlines, List.getLast?_append, Option.mem_def.1 hline]
  rfl

end Language

end RpcBindings
