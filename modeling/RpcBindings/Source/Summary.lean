import RpcBindings.Text.Capital
import RpcBindings.Validation.Step
import RpcBindings.Value.Json

/-!
# RpcBindings.Source.Summary

The sentences that document types and fields in comments: what the schema says of them, the allowed
texts of a field and its default.
-/

namespace RpcBindings

namespace Field

/-- The sentences on the allowed texts and the default of a field, each after a space. -/
def constraintSentences (field : Field) : Except JsonError String := do
  let allowed := match field.enum with
    | none | some [] => ""
    | some texts => s!" {Text.capitalize (enumMessage texts)}."
  match field.default with
  | .null => return allowed
  | default => do
    let json ← Json.render default
    return allowed ++ s!" This field defaults to {json}."

/-- The documentation of a field under the name of its member. -/
def summary (field : Field) (member : String) : Except JsonError String := do
  let sentences ← field.constraintSentences
  let description :=
    if field.description.isEmpty then s!"the {field.name} field." else field.description
  return s!"{member} is {description}{sentences}"

end Field

/-- The documentation of a declared type. -/
def typeSummary (name description : String) : String :=
  if description.isEmpty then name else s!"{name} {description}"

end RpcBindings
