import RpcBindings.Configuration.Reader
import RpcBindings.File.Access
import RpcBindings.Text.Lines
import RpcBindings.Text.Utf8
import RpcBindings.Value.Loader

/-!
# RpcBindings.Configuration.File

Configurations in files.
-/

namespace RpcBindings

/-- Why a file cannot be read as text. -/
inductive TextFileError where
  | file (e : FileError)
  | encoding (e : Text.Utf8Error)

def TextFileError.message : TextFileError → String
  | .file e => e.message
  | .encoding e => e.message

namespace FileAccess

variable {m : Type → Type} [Monad m] [FileAccess m]

/-- Reads a text in UTF-8 whose line breaks are all written as line feeds. -/
def readText (p : Path) : ExceptT TextFileError m (List Char) := do
  let bytes ← ExceptT.adapt TextFileError.file (read p)
  let text ← (Text.Utf8.decode bytes).mapError TextFileError.encoding
  return Text.unifyLineBreaks text

end FileAccess

/-- Why a file gives no configuration. -/
inductive ConfigurationFileError where
  | configuration (e : ConfigurationError)
  | text (e : TextFileError)
  | broken (e : Break)
  | beyond

namespace Configuration

variable [Loader]

/-- The mapping at the root of a document; an empty document counts as the empty mapping. -/
def rootEntries (text : List Char) : Except ConfigurationFileError Entries :=
  match Loader.load text with
  | .malformed => .error (.configuration .unreadable)
  | .broken e => .error (.broken e)
  | .beyond => .error .beyond
  | .datum .null => .ok []
  | .datum (.map entries) => .ok entries
  | .datum _ => .error (.configuration .rootNotMapping)

variable {m : Type → Type} [Monad m] [FileAccess m]

/-- The mapping in a file. -/
def readEntries (path : Path) : ExceptT ConfigurationFileError m Entries := do
  if !(← ExceptT.adapt (fun e => .text (.file e)) (FileAccess.isPresent path)) then
    throw (.configuration (.fileNotFound path.text))
  let text ← ExceptT.adapt ConfigurationFileError.text (FileAccess.readText path)
  rootEntries text

/-- The configuration in a file, with options written over it.  Its relative paths start at the
directory of the file. -/
def load [Encoding] (path : Path) (options : Entries) :
    ExceptT ConfigurationFileError m Configuration := do
  let values ← readEntries path
  let here ← (FileAccess.currentDirectory : m Path)
  (ofEntries (here.join path.parent) (some path) values options).mapError
    ConfigurationFileError.configuration

end Configuration

end RpcBindings
