import RpcBindings.Source.Literal
import RpcBindings.Target.Dialect

/-!
# RpcBindings.Target.Go

Go documents: a struct for each declaration and a method that validates it.  An optional member is
a pointer unless its type has a nil value of its own, so the steps look through the pointer first.
-/

namespace RpcBindings.Go

/-- The error type of validations and the test for allowed texts. -/
def helpers : List String :=
  ["// ValidationError is returned when a field fails validation.",
   "type ValidationError struct \x7b",
   "\tField   string",
   "\tMessage string",
   "\x7d",
   "",
   "// Error implementation.",
   "func (e ValidationError) Error() string \x7b",
   "\treturn fmt.Sprintf(\"Field: %s, Message: %s\", e.Field, e.Message)",
   "\x7d",
   "",
   "// oneOf returns true if s is in the values.",
   "func oneOf(s string, values []string) bool \x7b",
   "\tfor _, v := range values \x7b",
   "\t\tif s == v \x7b",
   "\t\t\treturn true",
   "\t\t\x7d",
   "\t\x7d",
   "\treturn false",
   "\x7d"]

/-- The imports, the clock among them where a field needs it. -/
def header (options : Options) (schema : Schema) : Draft :=
  [.line 0 ("// " ++ generatedNotice), Draft.emptyLine,
   .line 0 ("package " ++ options.package), Draft.emptyLine,
   .line 0 "import (", .line 1 "\"fmt\""] ++
  (if schema.usesKind .timestamp then [.line 1 "\"time\""] else []) ++
  [.line 0 ")", Draft.emptyLine] ++ Draft.ready helpers ++ [Draft.emptyLine]

/-! ## Structs -/

/-- The tags of a member, all with the name of the field. -/
def tags (options : Options) (field : Field) : String :=
  let name := Literal.doubleQuoted field.name
  "`" ++ " ".intercalate (options.tags.map fun tag => tag ++ ":" ++ name) ++ "`"

def member (options : Options) (m : Member) : Draft :=
  [.line 1 ("// " ++ m.summary),
   .line 1 (m.identifier ++ " " ++ m.type ++ " " ++ tags options m.field)]

def comment (d : Declaration) : String :=
  match d.role with
  | .type description => typeSummary d.name description
  | .input | .output => d.name ++ " params."

def declaration (options : Options) (d : Declaration) : Draft :=
  [.line 0 ("// " ++ comment d), .line 0 ("type " ++ d.name ++ " struct \x7b")] ++
  [Draft.emptyLine].intercalate (d.members.map (member options)) ++
  [.line 0 "\x7d"]

/-! ## Validation -/

/-- Whether a member is a pointer. -/
def isPointer (m : Member) : Bool :=
  m.optional && m.field.type.kind != .array && m.field.type.kind != .object

def failure (field message : String) : Stroke :=
  .line 2 ("return ValidationError\x7bField: " ++ Literal.doubleQuoted field ++
    ", Message: " ++ Literal.doubleQuoted message ++ "\x7d")

/-- The condition under which a required value is missing. -/
def missing (kind : Kind) (value : String) : String :=
  match kind with
  | .int | .float => value ++ " == 0"
  | .string => value ++ " == \"\""
  | .timestamp => value ++ ".IsZero()"
  | _ => value ++ " == nil"

def defaultStep (m : Member) (value : String) (d : DefaultValue) : Draft :=
  let isInt := m.field.type.kind == .int
  let zero := if isInt then "0" else "\"\""
  let literal := if isInt then d.render else Literal.doubleQuoted d.render
  if isPointer m then
    let typed := if isInt then "int64(" ++ literal ++ ")" else literal
    [.line 1 s!"if {value} == nil || *{value} == {zero} \x7b",
     .line 2 ("value := " ++ typed),
     .line 2 (value ++ " = &value"),
     .line 1 "\x7d", Draft.emptyLine]
  else
    [.line 1 s!"if {value} == {zero} \x7b",
     .line 2 s!"{value} = {literal}",
     .line 1 "\x7d", Draft.emptyLine]

def enumStep (m : Member) (value : String) (allowed : List String) : Draft :=
  let texts := "[]string\x7b" ++ ", ".intercalate (allowed.map Literal.doubleQuoted) ++ "\x7d"
  let condition :=
    if isPointer m then
      s!"{value} != nil && *{value} != \"\" && !oneOf(*{value}, {texts})"
    else s!"{value} != \"\" && !oneOf({value}, {texts})"
  [.line 1 ("if " ++ condition ++ " \x7b"), failure m.field.name (enumMessage allowed),
   .line 1 "\x7d", Draft.emptyLine]

def elementsStep (value : String) : Draft :=
  [.line 1 ("for index := range " ++ value ++ " \x7b"),
   .line 2 ("if err := " ++ value ++ "[index].Validate(); err != nil \x7b"),
   .line 3 "return fmt.Errorf(\"element %d: %s\", index, err.Error())",
   .line 2 "\x7d", .line 1 "\x7d", Draft.emptyLine]

def step (m : Member) (value : String) : Step → Draft
  | .default d => defaultStep m value d
  | .required =>
    [.line 1 ("if " ++ missing m.field.type.kind value ++ " \x7b"),
     failure m.field.name requiredMessage, .line 1 "\x7d", Draft.emptyLine]
  | .oneOf allowed => enumStep m value allowed
  | .elements _ => elementsStep value

/-- The name of the value inside its methods: the first letter of its type in lower case. -/
def receiver (name : String) : String :=
  String.ofList ((name.toList.take 1).map Char.toLower)

def validation (d : Declaration) (plan : Plan) : Draft :=
  let self := receiver d.name
  [.line 0 "// Validate implementation.",
   .line 0 s!"func ({self} *{d.name}) Validate() error \x7b"] ++
  (d.ruled plan).flatMap (fun (m, steps) => steps.flatMap (step m (self ++ "." ++ m.identifier))) ++
  [.line 1 "return nil", .line 0 "\x7d"]

def dialect : Dialect where
  indentUnit := "\t"
  header := header
  declaration := declaration
  validation := validation
  clientHead := fun _ => []
  stub := fun _ => []
  clientTail := []

end RpcBindings.Go
