import RpcBindings.Configuration.File
import RpcBindings.Schema.Reader

/-!
# RpcBindings.Generation.Run

Generating a document from files: the configuration and the schema are read, the document is
generated, and only then is a file touched.  What is written is the whole document or nothing.
-/

namespace RpcBindings

/-! ## Requests -/

/-- What a user asks for; whatever is not said here is left to the configuration. -/
structure Request where
  config : Option String := none
  schema : Option String := none
  target : Option String := none
  output : Option String := none
  package : Option String := none
  fetchLibrary : Option String := none
  tags : List String := []
  validate : Option Bool := none
  rubyModule : Option String := none
  rubyClass : Option String := none
deriving DecidableEq

namespace Request

/-- A path that a user gives starts at the current directory, not at the configuration; a blank one
stays blank. -/
def absolute [Encoding] (here : Path) (s : String) : Except ConfigurationError String :=
  if (Text.trim s).isEmpty then .ok s
  else (Configuration.resolved here (Path.ofString s)).map Path.text

/-- The options that a request writes over its configuration, with these paths of the schema and of
the output. -/
def entries (r : Request) (schema output : Option String) : Entries :=
  let text (s : Option String) : Value := (s.map Value.text).getD .null
  [(.text "schema", text schema),
   (.text "target", text r.target),
   (.text "output", text output),
   (.text "package", text r.package),
   (.text "fetch_library", text r.fetchLibrary),
   (.text "tags", if r.tags.isEmpty then .null else .list (r.tags.map Value.text)),
   (.text "validate", (r.validate.map Value.bool).getD .null),
   (.text "ruby_module", text r.rubyModule),
   (.text "ruby_class", text r.rubyClass)]

/-- The options that a request writes over its configuration. -/
def options [Encoding] (r : Request) (here : Path) : Except ConfigurationError Entries := do
  let schema ← r.schema.mapM (absolute here)
  let output ← r.output.mapM (absolute here)
  return r.entries schema output

end Request

/-! ## Events -/

/-- What is logged on the way. -/
inductive Event where
  | loadingSchema (path : Path)
  | loadedSchema (types methods : Nat)
  | progress (p : Progress)
  | wrote (path : Path)

namespace Event

def level : Event → Level
  | .progress (.notice n) => n.level
  | _ => .debug

/-- The name of the log that an event is written to. -/
def log : Event → String
  | .loadingSchema _ | .loadedSchema _ _ => "rpc_stubgen.schema_management.schema_loader"
  | .progress (.notice _) => "rpc_stubgen.validation_synthesis.validation_synthesizer"
  | .progress _ | .wrote _ => "rpc_stubgen.generation.generation_use_case"

def text : Event → String
  | .loadingSchema path => s!"loading schema from {path.text}"
  | .loadedSchema types methods => s!"loaded schema with {types} types and {methods} methods"
  | .progress (.generating target options) => s!"generating {target} with {options.display}"
  | .progress (.notice n) => n.text
  | .progress (.generated characters target) => s!"generated {characters} characters for {target}"
  | .wrote path => s!"wrote {path.text}"

/-- An event as a line of a log. -/
def line (e : Event) : String :=
  s!"{e.level.name} {e.log}: {e.text}\n"

end Event

/-! ## Errors -/

/-- Why a run does not succeed. -/
inductive RunError where
  | configuration (e : ConfigurationError)
  | schema (e : SchemaError)
  | document (e : DocumentError)
  /-- The configuration or the schema is no text. -/
  | text (e : TextFileError)
  /-- The configuration or the schema breaks its loader off. -/
  | broken (e : Break)
  /-- The data of the configuration or the schema cannot be followed to their ends. -/
  | beyond
  /-- The document cannot be written to the path. -/
  | output (path : Path) (e : FileError)

/-- What a failure leads to. -/
inductive Fate where
  /-- It is told to the user. -/
  | reported
  /-- It is not provided for and breaks the program off. -/
  | breaksOff
  /-- This is not settled here. -/
  | leftOpen
deriving DecidableEq

namespace RunError

def ofConfigurationFileError : ConfigurationFileError → RunError
  | .configuration e => .configuration e
  | .text e => .text e
  | .broken e => .broken e
  | .beyond => .beyond

def ofLoadError : LoadError → RunError
  | .schema e => .schema e
  | .broken e => .broken e
  | .beyond => .beyond

def message : RunError → String
  | .configuration e => e.message
  | .schema e => e.message
  | .document e => e.message
  | .text e => e.message
  | .broken e => e.message
  | .beyond => "The data cannot be followed to their ends."
  | .output path e =>
    if e.fault.isOfSystem then s!"Failed to write {path.text}: {e.message}" else e.message

/-- What a failure of a run leads to.  Files that are no texts, keys that are no texts, defaults
that have no written form, and paths and documents that have no bytes are not provided for, nor is
anything that breaks a loader off. -/
def fate : RunError → Fate
  | .configuration e => if e.isProvidedFor then .reported else .breaksOff
  | .schema _ => .reported
  | .document (.emission (.generation _)) => .reported
  | .document _ => .breaksOff
  | .text _ | .broken _ => .breaksOff
  | .beyond => .leftOpen
  | .output _ e => if e.fault.isOfSystem then .reported else .breaksOff

end RunError

/-! ## Runs -/

/-- Runs that log events and may fail; the events before a failure are kept. -/
abbrev RunT (m : Type → Type) := ExceptT RunError (StateT (List Event) m)

namespace RunT

variable {m : Type → Type} [Monad m]

def note (events : List Event) : RunT m Unit :=
  modify (· ++ events)

/-- A step of a run, whose failure is a failure of the run. -/
def step {ε α : Type} (f : ε → RunError) (x : ExceptT ε m α) : RunT m α :=
  ExceptT.mk do return (← StateT.lift x.run).mapError f

/-- A step of a run that leaves notices. -/
def noted {ω ε α : Type} (g : ω → Event) (f : ε → RunError) (x : Noted ω ε α) : RunT m α := do
  note (x.notices.map g)
  ExceptT.mk (pure (x.outcome.mapError f))

end RunT

/-- A generated document, and where it goes if it goes to a file. -/
structure Generated where
  document : String
  outputPath : Option Path

namespace Request

variable {m : Type → Type} [Monad m] [FileAccess m] [Loader]

/-- The configuration of a run: that of the given file, or an empty one in the current directory,
with the options of the request written over it. -/
def configuration [Encoding] (r : Request) : RunT m Configuration := do
  let here ← (FileAccess.currentDirectory : m Path)
  let options ← RunT.step RunError.configuration (ExceptT.mk (pure (r.options here)))
  match r.config with
  | some path =>
    RunT.step RunError.ofConfigurationFileError (Configuration.load (Path.ofString path) options)
  | none =>
    RunT.step RunError.configuration
      (ExceptT.mk (pure (Configuration.ofEntries here none [] options)))

/-- The schema in a file. -/
def loadSchema (path : Path) : RunT m Schema := do
  if !(← RunT.step (fun e => .text (.file e)) (FileAccess.isPresent path)) then
    throw (.schema (.fileNotFound path.text))
  RunT.note [.loadingSchema path]
  let text ← RunT.step RunError.text (FileAccess.readText path)
  let schema ← RunT.step RunError.ofLoadError (ExceptT.mk (pure (Schema.read text)))
  RunT.note [.loadedSchema schema.types.length schema.methods.length]
  return schema

/-- Generates the document that is asked for.  Files are only read for it. -/
def prepare [Encoding] (r : Request) : RunT m Generated := do
  let configuration ← r.configuration
  let schema ← loadSchema configuration.schemaPath
  let document ←
    RunT.noted Event.progress RunError.document (schema.generate configuration.settings)
  return ⟨document, configuration.outputPath⟩

/-- Generates the document that is asked for, and writes it if it goes to a file. -/
def run [Encoding] (r : Request) : RunT m Generated := do
  let generated ← r.prepare
  match generated.outputPath with
  | none => return generated
  | some path =>
    RunT.step (RunError.output path) (FileAccess.replaceFile path generated.document)
    RunT.note [.wrote path]
    return generated

end Request

end RpcBindings
