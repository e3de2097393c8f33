import RpcBindings.Emission.Outline
import RpcBindings.Source.Draft

/-!
# RpcBindings.Target.Dialect

The order of a document's parts, which the target languages share: a notice, what the language
needs first, the declarations with their validations, a gap after each, and the client.
-/

namespace RpcBindings

/-- The notice at the head of every document. -/
def generatedNotice : String := "Do not edit, this file was generated by rpc-stubgen."

/-- How a language writes the parts of a document. -/
structure Dialect where
  /-- One level of indentation. -/
  indentUnit : String
  /-- The notice and what must stand before the declarations. -/
  header : Options → Schema → Draft
  declaration : Options → Declaration → Draft
  validation : Declaration → Plan → Draft
  /-- What stands before the stubs of the client. -/
  clientHead : Options → Draft
  stub : Stub → Draft
  /-- What stands after the stubs of the client. -/
  clientTail : Draft

namespace Dialect

/-- A declaration with its validation. -/
def part (dialect : Dialect) (options : Options) (d : Declaration) : Draft :=
  dialect.declaration options d ++ [.gap] ++
    match d.rules with
    | none => []
    | some plan => dialect.validation d plan ++ [.gap]

/-- The client of a document. -/
def client (dialect : Dialect) (options : Options) (stubs : List Stub) : Draft :=
  dialect.clientHead options ++ stubs.flatMap dialect.stub ++ dialect.clientTail

/-- A whole document. -/
def draft (dialect : Dialect) (options : Options) (schema : Schema) (outline : Outline) : Draft :=
  dialect.header options schema ++ outline.declarations.flatMap (dialect.part options) ++
    if options.includeClient then dialect.client options outline.stubs else []

end Dialect

end RpcBindings
