import RpcBindings.Name.Style
import RpcBindings.Schema.References

/-!
# RpcBindings.Generation.Error

Why no document can be generated from a schema.
-/

namespace RpcBindings

/-- Why no document can be generated from a schema. -/
inductive GenerationError where
  | naming (e : NamingError)
  | unresolved (e : UnresolvedReference)
  /-- The descriptor has no type in the language. -/
  | unhandled (descriptor : Descriptor) (language : Language) (owner : Option String)
deriving DecidableEq

/-- The wording of a generation error; an empty place counts as none. -/
def GenerationError.message : GenerationError → String
  | .naming e => e.message
  | .unresolved e => e.message
  | .unhandled descriptor language owner =>
    let place := match owner with
      | none | some "" => ""
      | some owner => owner ++ ": "
    s!"{place}unhandled type {descriptor.display} for {language.title}"

end RpcBindings
