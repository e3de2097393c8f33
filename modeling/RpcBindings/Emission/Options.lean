import RpcBindings.Text.Quoted

/-!
# RpcBindings.Emission.Options

What a generated document contains, and the names that it takes from its settings.
-/

namespace RpcBindings

/-- The options of one document. -/
structure Options where
  /-- The package of a Go document. -/
  package : String := "api"
  /-- The tags of each field in Go. -/
  tags : List String := ["json"]
  validate : Bool := true
  includeTypes : Bool := true
  includeClient : Bool := false
  /-- The module that a TypeScript client imports `fetch` from. -/
  fetchLibrary : String := "node-fetch"
  rubyModule : String := "Api"
  rubyClass : String := "Client"

namespace Options

def displayBool (b : Bool) : String :=
  if b then "True" else "False"

/-- A list of texts as logs show it: in parentheses, a single one with a comma after it. -/
def displayTexts : List String → String
  | [s] => "(" ++ Text.quoted s ++ ",)"
  | texts => "(" ++ ", ".intercalate (texts.map Text.quoted) ++ ")"

def display (o : Options) : String :=
  "EmitterOptions(" ++ ", ".intercalate
    ["package=" ++ Text.quoted o.package,
     "tags=" ++ displayTexts o.tags,
     "validate=" ++ displayBool o.validate,
     "include_types=" ++ displayBool o.includeTypes,
     "include_client=" ++ displayBool o.includeClient,
     "fetch_library=" ++ Text.quoted o.fetchLibrary,
     "ruby_module=" ++ Text.quoted o.rubyModule,
     "ruby_class=" ++ Text.quoted o.rubyClass] ++ ")"

end Options

end RpcBindings
