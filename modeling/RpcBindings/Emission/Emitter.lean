import RpcBindings.Emission.Options
import RpcBindings.Name.Scope
import RpcBindings.Schema.Basic

/-!
# RpcBindings.Emission.Emitter

The naming of a whole document, settled before anything is written.  Types and the inputs and
outputs of methods share one scope of declarations, client methods another; what the document
declares besides the schema is reserved in them.  Where two names meet, there is no emitter.
-/

namespace RpcBindings

/-- The name under which the input of a method is declared. -/
def Method.inputName (m : Method) : String := m.name ++ "_input"

/-- The name under which the output of a method is declared. -/
def Method.outputName (m : Method) : String := m.name ++ "_output"

namespace Schema

/-- The names that a method claims: its own, and those of its input and output if it has them. -/
def methodClaims (m : Method) : List (Role × String) :=
  [(.method, m.name)] ++
    (if m.inputs.isEmpty then [] else [(.declaration, m.inputName)]) ++
    (if m.outputs.isEmpty then [] else [(.declaration, m.outputName)])

/-- All names that a schema claims, in order. -/
def claims (schema : Schema) : List (Role × String) :=
  (schema.types.map fun type => (.declaration, type.name)) ++ schema.methods.flatMap methodClaims

end Schema

/-- The identifiers that a document declares besides those of the schema. -/
def Language.reserved (options : Options) : Language → Role → List String
  | .go, .declaration => ["ValidationError"]
  | .go, .field => if options.validate then ["Validate"] else []
  | .rust, .declaration =>
    if options.includeClient then ["Self", "Client", "ClientError"] else ["Self"]
  | .rust, .method => if options.includeClient then ["new", "call"] else []
  | .typescript, .declaration => if options.includeClient then ["Client", "ClientError"] else []
  | .typescript, .method =>
    if options.includeClient then ["call", "constructor", "url", "authToken", "decoder"] else []
  | .ruby, .method => if options.includeClient then ["call", "initialize"] else []
  | _, _ => []

/-- A schema with the names of its document in one language. -/
structure Emitter where
  language : Language
  schema : Schema
  options : Options
  declarations : Scope
  methods : Scope

namespace Emitter

/-- An emitter with nothing but the reserved names. -/
def start (language : Language) (schema : Schema) (options : Options) : Emitter where
  language := language
  schema := schema
  options := options
  declarations := (Scope.empty "type declarations" language .declaration).reserve
    (language.reserved options .declaration)
  methods := (Scope.empty "client methods" language .method).reserve
    (language.reserved options .method)

def claim (e : Emitter) : Role × String → Except NamingError Emitter
  | (.method, name) => do
    let (_, methods) ← e.methods.claim name
    return { e with methods }
  | (_, name) => do
    let (_, declarations) ← e.declarations.claim name
    return { e with declarations }

/-- The emitter of a schema, which owns all names that the schema claims. -/
def create (language : Language) (schema : Schema) (options : Options) :
    Except NamingError Emitter :=
  schema.claims.foldlM claim (start language schema options)

/-- The identifier of a declaration. -/
def declarationName (e : Emitter) (name : String) : Except NamingError String :=
  (e.declarations.claim name).map (·.1)

def methodName (e : Emitter) (name : String) : Except NamingError String :=
  (e.methods.claim name).map (·.1)

end Emitter

end RpcBindings
