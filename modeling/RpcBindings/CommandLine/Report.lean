import RpcBindings.CommandLine.Command
import RpcBindings.Configuration.Template

/-!
# RpcBindings.CommandLine.Report

What the program does for a command line: what it prints, what it logs and how it ends.
-/

namespace RpcBindings

/-- Why the program does not end in success. -/
inductive CommandError where
  | rejected (e : Rejection)
  | run (e : RunError)
  | template (e : TemplateError)
  /-- The arguments break their reader off, or a text cannot be printed. -/
  | broken (e : Break)

namespace CommandError

def message : CommandError → String
  | .rejected e => e.text
  | .run e => e.message
  | .template e => e.message
  | .broken e => e.message

/-- What a failure leads to: those that are reported end the program with a message. -/
def fate : CommandError → Fate
  | .rejected _ => .reported
  | .run e => e.fate
  | .template e => if e.isReported then .reported else .breaksOff
  | .broken _ => .breaksOff

/-- The exit code that tells the failure. -/
def exitCode : CommandError → Nat
  | .rejected e => e.code
  | .run _ | .template _ | .broken _ => 1

def display [Console] : CommandError → String
  | .rejected e => e.text
  | e => Console.tell (e.message ++ "\n")

end CommandError

/-- How a command went. -/
structure Report where
  /-- What is printed. -/
  output : String
  /-- What is logged, if logs are asked for. -/
  log : List Event
  failure : Option CommandError

namespace Report

variable [Console]

def success (log : List Event) (text : String) : Report :=
  match Console.print text with
  | .ok output => ⟨output, log, none⟩
  | .error e => ⟨"", log, some (.broken e)⟩

def failed (log : List Event) (e : CommandError) : Report := ⟨"", log, some e⟩

def exitCode (r : Report) : Nat :=
  (r.failure.map CommandError.exitCode).getD 0

/-- What goes to the error output: the log, and then the failure if there is one. -/
def errorOutput (r : Report) : String :=
  String.join (r.log.map Event.line) ++ (r.failure.map CommandError.display).getD ""

end Report

/-- What is printed for a generated document: the document, or the path that it was written to. -/
def Generated.output (g : Generated) : String :=
  match g.outputPath with
  | none => g.document
  | some path => path.text ++ "\n"

def targetList : String :=
  String.join (Target.all.map fun target => target.name ++ "\t" ++ target.description ++ "\n")

variable {m : Type → Type} [Monad m] [FileAccess m] [Encoding] [Loader] [Console]

def Command.run (verbose : Bool) : Command → m Report
  | .generate request => do
    let (outcome, events) ← request.run.run.run []
    let log := if verbose then events else []
    match outcome with
    | .ok generated => return .success log generated.output
    | .error e => return .failed log (.run e)
  | .generateConfig output => do
    match ← (Configuration.writeTemplate (Path.ofString output)).run with
    | .ok path => return .success [] (path.text ++ "\n")
    | .error e => return .failed [] (.template e)
  | .targets => return .success [] targetList

/-- Does what a command line asks for. -/
def runArguments [ArgumentReader m] (arguments : List String) : m Report := do
  match ← ArgumentReader.read arguments with
  | .command verbose command => command.run verbose
  | .shown text => return ⟨text, [], none⟩
  | .rejected e => return .failed [] (.rejected e)
  | .broken e => return .failed [] (.broken e)

end RpcBindings
