import RpcBindings.Source.Literal
import RpcBindings.Target.Dialect

/-!
# RpcBindings.Target.Rust

Rust documents: a struct for each declaration, an implementation that validates it, and a client
with one asynchronous method per remote method.  A member whose identifier is not the name of its
field carries that name as an attribute.
-/

namespace RpcBindings.Rust

/-- The client and its constructor. -/
def clientStruct : List String :=
  ["// Client is the API client.",
   "#[derive(Debug, Clone)]",
   "pub struct Client \x7b",
   "    client: reqwest::Client,",
   "    endpoint: String,",
   "    auth_token: Option<String>,",
   "\x7d",
   "",
   "impl Client \x7b",
   "    pub fn new(client: reqwest::Client, endpoint: &str, auth_token: Option<String>) -> Client \x7b",
   "        Client \x7b",
   "            client,",
   "            endpoint: endpoint.to_string(),",
   "            auth_token,",
   "        \x7d",
   "    \x7d"]

/-- The method that all client methods call, and the end of the client. -/
def call : List String :=
  ["    // call implementation.",
   "    async fn call(",
   "        &self,",
   "        method: &str,",
   "        input: Option<Vec<u8>>,",
   "    ) -> Result<bytes::Bytes, ClientError> \x7b",
   "        let uri = format!(\"\x7b\x7d/\x7b\x7d\", self.endpoint, method);",
   "",
   "        let mut builder = self",
   "            .client",
   "            .post(&uri)",
   "            .header(\"Content-Type\", \"application/json\");",
   "",
   "        if let Some(data) = input \x7b",
   "            builder = builder.body(data);",
   "        \x7d",
   "",
   "        if let Some(token) = &self.auth_token \x7b",
   "            builder = builder.header(\"Authorization\", format!(\"Bearer \x7b\x7d\", token));",
   "        \x7d",
   "",
   "        let resp = builder.send().await?;",
   "",
   "        let status_code = resp.status();",
   "        if status_code.as_u16() >= 300 \x7b",
   "            let mut e = ClientError \x7b",
   "                ..Default::default()",
   "            \x7d;",
   "",
   "            if let Some(content_type) = resp.headers().get(\"Content-Type\") \x7b",
   "                if content_type == \"application/json\" \x7b",
   "                    let body = resp.bytes().await?;",
   "                    e = serde_json::from_slice::<ClientError>(&body)?;",
   "                \x7d",
   "            \x7d",
   "",
   "            e.status_code = status_code.as_u16();",
   "            e.status = status_code.canonical_reason().unwrap_or_default().into();",
   "",
   "            return Err(e);",
   "        \x7d",
   "",
   "        Ok(resp.bytes().await?)",
   "    \x7d",
   "\x7d"]

/-- The error type of the client. -/
def errorHandling : List String :=
  ["// ClientError is an error returned by the client.",
   "#[derive(Serialize, Deserialize, Debug, Clone, Default)]",
   "pub struct ClientError \x7b",
   "    #[serde(default)]",
   "    pub status: String,",
   "    #[serde(default)]",
   "    pub status_code: u16,",
   "    #[serde(rename = \"type\")]",
   "    pub err_type: Option<String>,",
   "    pub message: Option<String>,",
   "\x7d",
   "",
   "impl std::fmt::Display for ClientError \x7b",
   "    fn fmt(&self, f: &mut std::fmt::Formatter<'_>) -> std::fmt::Result \x7b",
   "        match (&self.err_type, &self.message) \x7b",
   "            (Some(err_type), Some(message)) => \x7b",
   "                write!(f, \"\x7b\x7d response: \x7b\x7d: \x7b\x7d\", self.status_code, err_type, message)",
   "            \x7d",
   "            _ => write!(f, \"\x7b\x7d response\", self.status_code),",
   "        \x7d",
   "    \x7d",
   "\x7d",
   "",
   "impl std::error::Error for ClientError \x7b\x7d",
   "",
   "impl From<serde_json::error::Error> for ClientError \x7b",
   "    fn from(err: serde_json::error::Error) -> ClientError \x7b",
   "        ClientError \x7b",
   "            status: \"Internal Server Error\".into(),",
   "            status_code: 500,",
   "            err_type: Some(\"json\".into()),",
   "            message: Some(err.to_string()),",
   "        \x7d",
   "    \x7d",
   "\x7d",
   "",
   "impl From<reqwest::Error> for ClientError \x7b",
   "    fn from(err: reqwest::Error) -> ClientError \x7b",
   "        ClientError \x7b",
   "            status: \"Internal Server Error\".into(),",
   "            status_code: 500,",
   "            err_type: Some(\"reqwest\".into()),",
   "            message: Some(err.to_string()),",
   "        \x7d",
   "    \x7d",
   "\x7d"]

/-- The imports that the types of fields need. -/
def header (options : Options) (schema : Schema) : Draft :=
  [.line 0 ("// " ++ generatedNotice), Draft.emptyLine] ++
  (if options.includeTypes && schema.usesKind .object then
    [.line 0 "use std::collections::HashMap;", Draft.emptyLine] else []) ++
  (if options.includeTypes && schema.usesKind .timestamp then
    [.line 0 "use chrono::\x7bDateTime, Utc\x7d;"] else []) ++
  [.line 0 "use serde::\x7bDeserialize, Serialize\x7d;", Draft.emptyLine]

/-! ## Structs -/

/-- An identifier without the mark of raw identifiers. -/
def plainIdentifier (identifier : String) : String :=
  match identifier.toList with
  | 'r' :: '#' :: rest => String.ofList rest
  | _ => identifier

/-- The attribute that keeps the name of a field, where the identifier differs from it. -/
def rename (m : Member) : Draft :=
  if plainIdentifier m.identifier == m.field.name then []
  else [.line 1 ("#[serde(rename = " ++ Literal.rust m.field.name ++ ")]")]

def member (m : Member) : Draft :=
  [.line 1 ("// " ++ m.summary)] ++ rename m ++
  [.line 1 ("pub " ++ m.identifier ++ ": " ++ m.type ++ ",")]

def comment (d : Declaration) : String :=
  match d.role with
  | .type description => typeSummary d.name description
  | .input | .output => d.name ++ " params."

/-- The directions in which a struct is converted. -/
def conversions : DeclarationRole → String
  | .type _ => "Serialize, Deserialize"
  | .input => "Serialize"
  | .output => "Deserialize"

def declaration (_ : Options) (d : Declaration) : Draft :=
  [.line 0 ("// " ++ comment d),
   .line 0 ("#[derive(" ++ conversions d.role ++ ", Debug, Clone)]"),
   .line 0 ("pub struct " ++ d.name ++ " \x7b")] ++
  [Draft.emptyLine].intercalate (d.members.map member) ++
  [.line 0 "\x7d"]

/-! ## Validation -/

/-- The second of the earliest instant, 1 January of year 1, relative to 1970. -/
def originSecond : Int := -62135596800

def failure (depth : Nat) (field message : String) : Stroke :=
  .line depth ("return Err(" ++ Literal.rust (fieldMessage field message) ++ ".to_string());")

/-- The condition under which a required value is missing; sequences and maps cannot be missing in
a value that was read. -/
def missing? (kind : Kind) (value : String) : Option String :=
  match kind with
  | .int => some (value ++ " == 0")
  | .float => some (value ++ " == 0.0")
  | .string => some (value ++ ".is_empty()")
  | .timestamp => some s!"{value}.timestamp() == {originSecond}"
  | _ => none

def defaultStep (m : Member) (value : String) (d : DefaultValue) : Draft :=
  let isInt := m.field.type.kind == .int
  let literal := if isInt then d.render else Literal.rust d.render ++ ".to_string()"
  let condition :=
    if isInt then
      if m.optional then value ++ ".unwrap_or(0) == 0" else value ++ " == 0"
    else if m.optional then value ++ ".as_deref().unwrap_or(\"\").is_empty()"
    else value ++ ".is_empty()"
  let assigned := if m.optional then "Some(" ++ literal ++ ")" else literal
  [.line 2 ("if " ++ condition ++ " \x7b"), .line 3 s!"{value} = {assigned};",
   .line 2 "\x7d", Draft.emptyLine]

def requiredStep (m : Member) (value : String) : Draft :=
  match missing? m.field.type.kind value with
  | none =>
    [.line 2 s!"// {m.field.name}: presence is enforced when deserializing.", Draft.emptyLine]
  | some condition =>
    [.line 2 ("if " ++ condition ++ " \x7b"), failure 3 m.field.name requiredMessage,
     .line 2 "\x7d", Draft.emptyLine]

def enumStep (m : Member) (value : String) (allowed : List String) : Draft :=
  let texts := "[" ++ ", ".intercalate (allowed.map Literal.rust) ++ "]"
  let message := enumMessage allowed
  if m.optional then
    [.line 2 ("if let Some(value) = " ++ value ++ ".as_deref() \x7b"),
     .line 3 ("if !value.is_empty() && !" ++ texts ++ ".contains(&value) \x7b"),
     failure 4 m.field.name message,
     .line 3 "\x7d", .line 2 "\x7d", Draft.emptyLine]
  else
    [.line 2 ("if !" ++ value ++ ".is_empty() && !" ++ texts ++ ".contains(&" ++ value ++
      ".as_str()) \x7b"),
     failure 3 m.field.name message, .line 2 "\x7d", Draft.emptyLine]

/-- The loop over the elements of a sequence. -/
def elementsLoop (depth : Nat) (items : String) : Draft :=
  [.line depth ("for (i, item) in " ++ items ++ ".iter_mut().enumerate() \x7b"),
   .line (depth + 1) "if let Err(err) = item.validate() \x7b",
   .line (depth + 2) "return Err(format!(\"element \x7b\x7d: \x7b\x7d\", i, err));",
   .line (depth + 1) "\x7d", .line depth "\x7d"]

def elementsStep (m : Member) (value : String) : Draft :=
  if m.optional then
    [.line 2 ("if let Some(items) = " ++ value ++ ".as_mut() \x7b")] ++ elementsLoop 3 "items" ++
      [.line 2 "\x7d", Draft.emptyLine]
  else elementsLoop 2 value ++ [Draft.emptyLine]

def step (m : Member) : Step → Draft
  | .default d => defaultStep m ("self." ++ m.identifier) d
  | .required => requiredStep m ("self." ++ m.identifier)
  | .oneOf allowed => enumStep m ("self." ++ m.identifier) allowed
  | .elements _ => elementsStep m ("self." ++ m.identifier)

def validation (d : Declaration) (plan : Plan) : Draft :=
  [.line 0 "// Validate implementation.", .line 0 ("impl " ++ d.name ++ " \x7b"),
   .line 1 "pub fn validate(&mut self) -> Result<(), String> \x7b"] ++
  (d.ruled plan).flatMap (fun (m, steps) => steps.flatMap (step m)) ++
  [.line 2 "Ok(())", .line 1 "\x7d", .line 0 "\x7d"]

/-! ## The client -/

/-- The head of a client method. -/
def signature (s : Stub) : String :=
  let input := match s.input with
    | none => ""
    | some name => ", input: &" ++ name
  let result := s.output.getD "()"
  s!"pub async fn {s.function}(&self{input}) -> Result<{result}, ClientError> \x7b"

def stub (s : Stub) : Draft :=
  let payload := if s.input.isSome then "Some(json)" else "None"
  let invocation := s!"self.call({Literal.rust s.method.name}, {payload}).await?;"
  [Draft.emptyLine] ++
  (if s.method.description.isEmpty then []
   else [.line 1 s!"// {s.function} {s.method.description}"]) ++
  [.line 1 (signature s)] ++
  (if s.input.isSome then [.line 2 "let json = serde_json::to_vec(input)?;"] else []) ++
  (match s.output with
   | some name =>
     [.line 2 ("let res: bytes::Bytes = " ++ invocation),
      .line 2 s!"let output: {name} = serde_json::from_slice(&res)?;",
      .line 2 "Ok(output)"]
   | none => [.line 2 invocation, .line 2 "Ok(())"]) ++
  [.line 1 "\x7d"]

def dialect : Dialect where
  indentUnit := "    "
  header := header
  declaration := declaration
  validation := validation
  clientHead := fun _ => Draft.ready clientStruct
  stub := stub
  clientTail := Draft.ready call ++ [Draft.emptyLine] ++ Draft.ready errorHandling

end RpcBindings.Rust
