import RpcBindings.Source.Literal
import RpcBindings.Target.Dialect

/-!
# RpcBindings.Target.TypeScript

TypeScript documents: an interface for each declaration, a function that validates its values, and
a client class with one asynchronous method per remote method.  Properties have the names of their
fields, in quotes where they are no identifiers.
-/

namespace RpcBindings.TypeScript

/-- The earliest instant, which stands for an absent one. -/
def zeroInstant : List String :=
  ["// zeroInstant is 0001-01-01T00:00:00Z in milliseconds.",
   "const zeroInstant = -62135596800000"]

/-- The error type of the client and the function that calls a remote method. -/
def call : List String :=
  ["/**",
   " * ClientError is an API client error providing the HTTP status code and error type.",
   " */",
   "export class ClientError extends Error \x7b",
   "  status: number",
   "  type?: string",
   "",
   "  constructor(status: number, message?: string, type?: string) \x7b",
   "    super(message)",
   "    this.status = status",
   "    this.type = type",
   "  \x7d",
   "\x7d",
   "",
   "const isoDate = /^\\d\x7b4\x7d-\\d\x7b2\x7d-\\d\x7b2\x7dT\\d\x7b2\x7d:\\d\x7b2\x7d:\\d\x7b2\x7d(\\.\\d+)?(Z|[+-]\\d\x7b2\x7d:\\d\x7b2\x7d)$/",
   "",
   "/**",
   " * reviver converts ISO-8601 timestamps into Date instances.",
   " */",
   "function reviver(_key: string, value: any): any \x7b",
   "  if (typeof value === 'string' && isoDate.test(value)) \x7b",
   "    return new Date(value)",
   "  \x7d",
   "  return value",
   "\x7d",
   "",
   "/**",
   " * Call method with params via a POST request.",
   " */",
   "async function call(",
   "  url: string,",
   "  authToken: string | undefined,",
   "  method: string,",
   "  params?: any",
   "): Promise<string> \x7b",
   "  const headers: Record<string, string> = \x7b",
   "    'Content-Type': 'application/json'",
   "  \x7d",
   "",
   "  if (authToken != null) \x7b",
   "    headers['Authorization'] = `Bearer $\x7bauthToken\x7d`",
   "  \x7d",
   "",
   "  const res = await fetch(url + '/' + method, \x7b",
   "    method: 'POST',",
   "    body: JSON.stringify(params),",
   "    headers",
   "  \x7d)",
   "",
   "  // we have an error, try to parse a well-formed json",
   "  // error response, otherwise default to status code",
   "  if (res.status >= 300) \x7b",
   "    let err",
   "    try \x7b",
   "      const \x7b type, message \x7d = await res.json()",
   "      err = new ClientError(res.status, message, type)",
   "    \x7d catch \x7b",
   "      err = new ClientError(res.status, res.statusText)",
   "    \x7d",
   "    throw err",
   "  \x7d",
   "",
   "  return res.text()",
   "\x7d"]

/-- The head of the client class. -/
def clientClass : List String :=
  ["/**",
   " * Client is the API client.",
   " */",
   "export class Client \x7b",
   "",
   "  private url: string",
   "  private authToken?: string",
   "",
   "  /**",
   "   * Initialize.",
   "   */",
   "  constructor(params: \x7b url: string, authToken?: string \x7d) \x7b",
   "    this.url = params.url",
   "    this.authToken = params.authToken",
   "  \x7d",
   "",
   "  /**",
   "   * Decoder is used as the reviver parameter when decoding responses.",
   "   */",
   "  private decoder(key: string, value: any): any \x7b",
   "    return reviver(key, value)",
   "  \x7d"]

def header (options : Options) (schema : Schema) : Draft :=
  [.line 0 ("// " ++ generatedNotice), Draft.emptyLine] ++
  (if options.includeClient then
    [.line 0 ("import fetch from " ++ Literal.singleQuoted options.fetchLibrary), Draft.emptyLine]
   else []) ++
  (if options.validate && schema.usesKind .timestamp then
    Draft.ready zeroInstant ++ [Draft.emptyLine] else [])

def comment (depth : Nat) (text : String) : Draft :=
  [.line depth "/**", .line depth (" * " ++ text), .line depth " */"]

/-! ## Interfaces -/

/-- Whether a character may begin an identifier. -/
def startsIdentifier (c : Char) : Bool :=
  c.isAlpha || c == '_' || c == '$'

/-- Whether a property name is written without quotes; one line feed at its end is overlooked. -/
def isPlainKey (name : String) : Bool :=
  let cs := name.toList
  let cs := if cs.getLast? == some '\n' then cs.dropLast else cs
  match cs with
  | [] => false
  | c :: rest => startsIdentifier c && rest.all fun c => startsIdentifier c || c.isDigit

/-- A property in an interface. -/
def propertyKey (name : String) : String :=
  if isPlainKey name then name else Literal.doubleQuoted name

/-- A property of a value. -/
def propertyAccess (name : String) : String :=
  if isPlainKey name then "." ++ name else "[" ++ Literal.doubleQuoted name ++ "]"

def member (m : Member) : Draft :=
  comment 1 m.summary ++
  [.line 1 (propertyKey m.identifier ++ (if m.optional then "?" else "") ++ ": " ++ m.type)]

/-- What the comment above an interface says. -/
def summary (d : Declaration) : String :=
  match d.role with
  | .type description => typeSummary d.name description
  | .input | .output => d.name ++ " params."

def declaration (_ : Options) (d : Declaration) : Draft :=
  comment 0 (summary d) ++
  [.line 0 ("export interface " ++ d.name ++ " \x7b")] ++
  [Draft.emptyLine].intercalate (d.members.map member) ++
  [.line 0 "\x7d"]

/-! ## Validation -/

def failure (field message : String) : Stroke :=
  .line 2 ("return " ++ Literal.doubleQuoted (fieldMessage field message))

/-- The condition under which a required value is missing. -/
def missing (kind : Kind) (value : String) : String :=
  match kind with
  | .array | .object => value ++ " == null"
  | .timestamp => s!"{value} == null || {value}.getTime() === zeroInstant"
  | _ => "!" ++ value

/-- A step of validation on the value of a member, without the empty line after it. -/
def stepBody (m : Member) (value : String) : Step → Draft
  | .default d =>
    let literal := if m.field.type.kind == .int then d.render else Literal.doubleQuoted d.render
    [.line 1 ("if (!" ++ value ++ ") \x7b"), .line 2 s!"{value} = {literal}", .line 1 "\x7d"]
  | .required =>
    [.line 1 ("if (" ++ missing m.field.type.kind value ++ ") \x7b"),
     failure m.field.name requiredMessage, .line 1 "\x7d"]
  | .oneOf allowed =>
    let texts := ", ".intercalate (allowed.map Literal.doubleQuoted)
    [.line 1 ("if (" ++ value ++ " && ![" ++ texts ++ "].includes(" ++ value ++ ")) \x7b"),
     failure m.field.name (enumMessage allowed), .line 1 "\x7d"]
  | .elements type =>
    let child := Language.typescript.casing .declaration type
    [.line 1 ("for (const [i, item] of (" ++ value ++ " ?? []).entries()) \x7b"),
     .line 2 ("const err = validate" ++ child ++ "(item)"),
     .line 2 "if (err) \x7b",
     .line 3 "return `element $\x7bi\x7d: $\x7berr\x7d`",
     .line 2 "\x7d", .line 1 "\x7d"]

def step (m : Member) (s : Step) : Draft :=
  stepBody m ("value" ++ propertyAccess m.identifier) s ++ [Draft.emptyLine]

def validation (d : Declaration) (plan : Plan) : Draft :=
  comment 0 s!"validate{d.name} checks value, applying defaults in place." ++
  [.line 0 s!"export function validate{d.name}(value: {d.name}): string | undefined \x7b"] ++
  (d.ruled plan).flatMap (fun (m, steps) => steps.flatMap (step m)) ++
  [.line 1 "return undefined", .line 0 "\x7d"]

/-! ## The client -/

def stub (s : Stub) : Draft :=
  let description := Text.capitalize s.method.description
  let summary :=
    if description.isEmpty then s!"{s.function} calls {s.method.name}." else description
  let params := match s.input with
    | none => ""
    | some name => "params: " ++ name
  let result := s.output.getD "void"
  let arguments := "this.url, this.authToken, " ++ Literal.singleQuoted s.method.name ++
    (if s.input.isSome then ", params" else "")
  [Draft.emptyLine] ++ comment 1 summary ++
  [.line 1 s!"async {s.function}({params}): Promise<{result}> \x7b"] ++
  (match s.output with
   | some name =>
     [.line 2 s!"const res = await call({arguments})",
      .line 2 s!"const out: {name} = JSON.parse(res, this.decoder)",
      .line 2 "return out"]
   | none => [.line 2 s!"await call({arguments})"]) ++
  [.line 1 "\x7d"]

def dialect : Dialect where
  indentUnit := "  "
  header := header
  declaration := declaration
  validation := validation
  clientHead := fun _ => Draft.ready call ++ [Draft.emptyLine] ++ Draft.ready clientClass
  stub := stub
  clientTail := [.line 0 "\x7d"]

end RpcBindings.TypeScript
