import RpcBindings.Emission.Emitter
import RpcBindings.Source.Summary
import RpcBindings.Text.Blank
import RpcBindings.Typing.TypeSystem
import RpcBindings.Validation.Plan

/-!
# RpcBindings.Emission.Outline

What a document declares, before it is written in the syntax of a language: declarations with
their members and validation, and the stubs of client methods, all with their identifiers and type
expressions.  Whatever can fail fails here, in the order in which the document is written; writing
an outline down always succeeds.
-/

namespace RpcBindings

/-- Why no outline can be made. -/
inductive EmissionError where
  | generation (e : GenerationError)
  /-- A default has no form in the documentation. -/
  | json (e : JsonError)
  /-- There is no client in this language. -/
  | noClient (language : Language)
  /-- There is no test for a missing value of this kind. -/
  | noTest (kind : Kind)

def EmissionError.message : EmissionError → String
  | .generation e => e.message
  | .json e => e.message
  | .noClient language => s!"{language.title} emitter has no client"
  | .noTest kind => kind.display

/-- A field with its identifier and type expression. -/
structure Member where
  field : Field
  identifier : String
  type : String
  /-- What the comment above the member says. -/
  summary : String

/-- A field that is not required. -/
def Member.optional (m : Member) : Bool :=
  !m.field.required

/-- What a declaration stands for. -/
inductive DeclarationRole where
  /-- A type of the schema, with its description. -/
  | type (description : String)
  | input
  | output

/-- A declared structure. -/
structure Declaration where
  name : String
  role : DeclarationRole
  members : List Member
  /-- The validation that is written with the declaration. -/
  rules : Option Plan

namespace Declaration

/-- The members that a plan validates, with their steps. -/
def ruled (d : Declaration) (plan : Plan) : List (Member × List Step) :=
  plan.fields.filterMap fun rules =>
    (d.members.reverse.find? (·.field.name == rules.field.name)).map fun m => (m, rules.steps)

end Declaration

/-- A documented parameter of a stub. -/
structure Parameter where
  field : Field
  type : String
  summary : String

/-- A client method. -/
structure Stub where
  function : String
  method : Method
  /-- The identifier of the declared input, if the method has inputs. -/
  input : Option String
  /-- The identifier of the declared output, if the method has outputs. -/
  output : Option String
  /-- The inputs where they are documented with the stub. -/
  parameters : List Parameter

/-- The contents of a document. -/
structure Outline where
  declarations : List Declaration
  stubs : List Stub

namespace Emitter

/-- An outcome whose error is one of emission. -/
def orFail {ε α : Type} (f : ε → EmissionError) (outcome : Except ε α) : Except EmissionError α :=
  outcome.mapError f

def orNaming {α : Type} : Except NamingError α → Except EmissionError α :=
  orFail fun e => .generation (.naming e)

/-! ## Members -/

/-- What the comment above a member says.  TypeScript members are called by their field names, and
Ruby has no comments for them. -/
def summaryOf (e : Emitter) (identifier : String) (field : Field) : Except JsonError String :=
  match e.language with
  | .go | .rust => field.summary identifier
  | .typescript => field.summary field.name
  | .ruby => .ok ""

/-- Fields with their identifiers, claimed one after the other, and their type expressions. -/
def typedFields (e : Emitter) (owner : String) :
    Scope → List Field → Except GenerationError (List (Field × String × String))
  | _, [] => .ok []
  | scope, field :: rest => do
    let (identifier, scope) ← (scope.claim field.name).mapError .naming
    let type ← e.language.typeSystem.expressField e.schema (some owner) field
    let more ← typedFields e owner scope rest
    return (field, identifier, type) :: more

/-- The scope of the fields of an owner. -/
def fieldScope (e : Emitter) (owner : String) : Scope :=
  (Scope.empty s!"fields of {owner}" e.language .field).reserve
    (e.language.reserved e.options .field)

/-- The members that fields of an owner become. -/
def members (e : Emitter) (owner : String) (fields : List Field) :
    Except EmissionError (List Member) := do
  let typed ← orFail .generation (e.typedFields owner (e.fieldScope owner) fields)
  typed.mapM fun (field, identifier, type) => do
    let summary ← orFail .json (e.summaryOf identifier field)
    return { field, identifier, type, summary }

/-! ## Declarations -/

/-- Whether a language can test that a required value of a kind is missing.  A member is written by
the last field of its name, so the kind need not be one whose values are required. -/
def testsMissing (e : Emitter) (kind : Kind) : Bool :=
  e.language != .go || !(kind == .bool || kind == .reference)

/-- The steps of a member, all of which the language can write. -/
def checkRules (e : Emitter) (m : Member) (steps : List Step) : Except EmissionError Unit :=
  if steps.contains .required && !e.testsMissing m.field.type.kind then
    .error (.noTest m.field.type.kind)
  else .ok ()

/-- A declaration whose validation the language can write. -/
def writable (e : Emitter) (d : Declaration) : Except EmissionError Declaration := do
  (d.rules.elim [] d.ruled).forM fun (m, steps) => e.checkRules m steps
  return d

/-- The declaration of a type, validated by its plan among `plans` if there are plans. -/
def typeDeclaration (e : Emitter) (plans : Option Plans) (type : ObjectType) :
    Except EmissionError Declaration := do
  let name ← orNaming (e.declarationName type.name)
  let members ← e.members type.name type.properties
  let rules := plans.bind (·.lookup type.name)
  e.writable { name, role := .type type.description, members, rules }

/-- The declaration of the input of a method that has inputs. -/
def inputDeclaration (e : Emitter) (method : Method) :
    Noted Notice EmissionError (List Declaration) :=
  if method.inputs.isEmpty then return []
  else do
    let name ← .lift (orNaming (e.declarationName method.inputName))
    let members ← .lift (e.members s!"{method.name} input" method.inputs)
    let rules ←
      if e.options.validate then
        some <$> (e.schema.inputPlan method).mapError fun e => .generation (.unresolved e)
      else pure none
    let declaration ← .lift (e.writable { name, role := .input, members, rules })
    return [declaration]

/-- The declaration of the output of a method that has outputs. -/
def outputDeclaration (e : Emitter) (method : Method) :
    Except EmissionError (List Declaration) :=
  if method.outputs.isEmpty then return []
  else do
    let name ← orNaming (e.declarationName method.outputName)
    let members ← e.members s!"{method.name} output" method.outputs
    return [{ name, role := .output, members, rules := none }]

/-- The declarations for the inputs and outputs of methods. -/
def methodDeclarations (e : Emitter) :
    List Method → Noted Notice EmissionError (List Declaration)
  | [] => return []
  | method :: rest => do
    let input ← e.inputDeclaration method
    let output ← .lift (e.outputDeclaration method)
    let more ← methodDeclarations e rest
    return input ++ output ++ more

/-- The plans of the declared types, if validation is written. -/
def plans? (e : Emitter) : Noted Notice EmissionError (Option Plans) :=
  if e.options.validate then
    some <$> e.schema.typePlans.mapError fun e => .generation (.unresolved e)
  else return none

/-- All declarations of the document. -/
def declarationOutlines (e : Emitter) : Noted Notice EmissionError (List Declaration) := do
  let plans ← e.plans?
  let types ← .lift (e.schema.types.mapM (e.typeDeclaration plans))
  let methods ← e.methodDeclarations e.schema.methods
  return types ++ methods

/-! ## Stubs -/

/-- A parameter as the comment above a Ruby method documents it. -/
def parameter (e : Emitter) (method : Method) (field : Field) : Except EmissionError Parameter := do
  let type ← orFail .generation
    (e.language.typeSystem.expressField e.schema (some method.name) field)
  let sentences ← orFail .json field.constraintSentences
  return { field, type, summary := Text.trim (Text.capitalize field.description ++ sentences) }

def stub (e : Emitter) (method : Method) : Except EmissionError Stub := do
  let function ← orNaming (e.methodName method.name)
  let input ←
    if method.inputs.isEmpty then pure none
    else some <$> orNaming (e.declarationName method.inputName)
  let output ←
    if method.outputs.isEmpty then pure none
    else some <$> orNaming (e.declarationName method.outputName)
  let parameters ←
    if e.language == .ruby then method.inputs.mapM (e.parameter method) else pure []
  return { function, method, input, output, parameters }

def stubs (e : Emitter) : Except EmissionError (List Stub) :=
  if e.language == .go then .error (.noClient .go) else e.schema.methods.mapM e.stub

/-! ## The whole document -/

/-- The contents of the document. -/
def outline (e : Emitter) : Noted Notice EmissionError Outline := do
  let declarations ← if e.options.includeTypes then e.declarationOutlines else pure []
  let stubs ← if e.options.includeClient then .lift e.stubs else pure []
  return { declarations, stubs }

end Emitter

end RpcBindings
