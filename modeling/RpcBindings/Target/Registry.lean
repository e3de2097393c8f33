import RpcBindings.Target.Go
import RpcBindings.Target.Ruby
import RpcBindings.Target.Rust
import RpcBindings.Target.TypeScript

/-!
# RpcBindings.Target.Registry

The targets that documents are generated for: a language together with the sections that its
document has.
-/

namespace RpcBindings

/-- How a language writes its documents. -/
def Language.dialect : Language → Dialect
  | .go => Go.dialect
  | .rust => Rust.dialect
  | .typescript => TypeScript.dialect
  | .ruby => Ruby.dialect

/-- The whole document of an emitter. -/
def Emitter.document (e : Emitter) : Noted Notice EmissionError String := do
  let outline ← e.outline
  let dialect := e.language.dialect
  return Draft.render dialect.indentUnit (dialect.draft e.options e.schema outline)

/-- A target. -/
structure Target where
  name : String
  language : Language
  includeTypes : Bool
  includeClient : Bool
  validateByDefault : Bool
  description : String

namespace Target

def goTypes : Target where
  name := "go-types"
  language := .go
  includeTypes := true
  includeClient := false
  validateByDefault := true
  description := "Go structs with Validate methods"

def rustTypes : Target where
  name := "rust-types"
  language := .rust
  includeTypes := true
  includeClient := false
  validateByDefault := true
  description := "Rust serde structs with validate impls"

def rustClient : Target where
  name := "rust-client"
  language := .rust
  includeTypes := true
  includeClient := true
  validateByDefault := false
  description := "Rust serde structs and async reqwest client"

def typeScriptTypes : Target where
  name := "ts-types"
  language := .typescript
  includeTypes := true
  includeClient := false
  validateByDefault := true
  description := "TypeScript interfaces with validate functions"

def typeScriptClient : Target where
  name := "ts-client"
  language := .typescript
  includeTypes := true
  includeClient := true
  validateByDefault := false
  description := "TypeScript interfaces and fetch client"

def rubyClient : Target where
  name := "ruby-client"
  language := .ruby
  includeTypes := false
  includeClient := true
  validateByDefault := false
  description := "Ruby net/http client"

/-- All targets, in the order in which they are listed. -/
def all : List Target :=
  [goTypes, rustTypes, rustClient, typeScriptTypes, typeScriptClient, rubyClient]

def ofName? (name : String) : Option Target :=
  all.find? (·.name == name)

def names : List String := all.map (·.name)

end Target

end RpcBindings
