import RpcBindings.Target.Registry

/-!
# RpcBindings.Generation.Document

Generating the document of one target from a schema.  The references of the schema are checked
before anything else, so that no partial document comes of one that leads nowhere.
-/

namespace RpcBindings

/-- The choice of a target and what is set for it. -/
structure Settings where
  target : String
  package : String := "api"
  fetchLibrary : String := "node-fetch"
  /-- The tags of each field in Go; those of the schema if none are given. -/
  tags : Option (List String) := none
  /-- Whether validation is written; as is usual for the target if nothing is said. -/
  validate : Option Bool := none
  rubyModule : String := "Api"
  rubyClass : String := "Client"

/-- Why no document is generated. -/
inductive DocumentError where
  | unknownTarget (name : String)
  | emission (e : EmissionError)

def DocumentError.message : DocumentError → String
  | .unknownTarget name => s!"Unknown target: {name}"
  | .emission e => e.message

/-- What is reported on the way to a document. -/
inductive Progress where
  | generating (target : String) (options : Options)
  | notice (n : Notice)
  | generated (characters : Nat) (target : String)

namespace Settings

/-- The options of a document for a target. -/
def options (settings : Settings) (schema : Schema) (target : Target) : Options where
  package := settings.package
  tags := settings.tags.getD schema.goTags
  validate := settings.validate.getD target.validateByDefault
  includeTypes := target.includeTypes
  includeClient := target.includeClient
  fetchLibrary := settings.fetchLibrary
  rubyModule := settings.rubyModule
  rubyClass := settings.rubyClass

end Settings

namespace Schema

/-- The document of the schema under some settings. -/
def generate (schema : Schema) (settings : Settings) : Noted Progress DocumentError String :=
  let fail (e : EmissionError) : DocumentError := .emission e
  match Target.ofName? settings.target with
  | none => .lift (.error (.unknownTarget settings.target))
  | some target => do
    .lift (schema.checkReferences.mapError fun e => fail (.generation (.unresolved e)))
    let options := settings.options schema target
    .note [.generating target.name options]
    let emitter ← .lift ((Emitter.create target.language schema options).mapError fun e =>
      fail (.generation (.naming e)))
    let document ← (emitter.document.mapNotices Progress.notice).mapError fail
    .note [.generated document.length target.name]
    return document

end Schema

end RpcBindings
