import RpcBindings.Name.Keyword

/-!
# RpcBindings.Name.Style

The identifiers of the target languages.  Each language writes a name in its own casing, which
depends on the role that the identifier plays; a name without letters and digits has no
identifier, except that TypeScript takes field names as they are.
-/

namespace RpcBindings

/-- A language that declarations and clients are written in. -/
inductive Language where
  | go
  | rust
  | typescript
  | ruby
deriving DecidableEq

def Language.all : List Language := [.go, .rust, .typescript, .ruby]

/-- A language as messages call it. -/
def Language.title : Language → String
  | .go => "Go"
  | .rust => "Rust"
  | .typescript => "TypeScript"
  | .ruby => "Ruby"

/-- What an identifier names. -/
inductive Role where
  /-- A declared type, or the input or output of a method. -/
  | declaration
  /-- A method of the client. -/
  | method
  /-- A field of a declaration. -/
  | field
deriving DecidableEq

/-- Why a name has no identifier, or not the one it asks for. -/
inductive NamingError where
  /-- The name leaves nothing to write. -/
  | empty (name : String) (language : Language)
  /-- Two names of one scope have the same identifier. -/
  | conflict (scope first second identifier : String)
deriving DecidableEq

def NamingError.message : NamingError → String
  | .empty name language => s!"Name '{name}' produces an empty {language.title} identifier."
  | .conflict scope first second identifier =>
    s!"Naming conflict in {scope}: '{first}' and '{second}' both map to '{identifier}'"

/-- A name in the casing of a language. -/
def Language.casing : Language → Role → String → String
  | .go, _ => Name.exported
  | .rust, .declaration => Name.pascal
  | .rust, _ => Name.rustMember
  | .typescript, .declaration => Name.pascal
  | .typescript, .method => Name.camel
  | .typescript, .field => id
  | .ruby, .declaration => Name.pascal
  | .ruby, _ => Name.snake

/-- The identifier of a name in a language. -/
def Language.identifier (language : Language) (role : Role) (name : String) :
    Except NamingError String :=
  let identifier := language.casing role name
  if identifier.isEmpty then .error (.empty name language) else .ok identifier

end RpcBindings
