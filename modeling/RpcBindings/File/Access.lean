import RpcBindings.File.Path

/-!
# RpcBindings.File.Access

What the program needs of a file system, and what it builds from that: making a directory with its
parents, and replacing a file in one step.  Nothing here knows whether the files are those of the
machine or those of a tree in memory.
-/

namespace RpcBindings

/-- Operations on files.  Relative paths start at the current directory. -/
class FileAccess (m : Type → Type) where
  currentDirectory : m Path
  /-- Whether there is a file or a directory at the path; a path that leads nowhere is no failure,
  one that is too long is. -/
  isPresent : Path → ExceptT FileError m Bool
  isDirectory : Path → ExceptT FileError m Bool
  read : Path → ExceptT FileError m (List UInt8)
  /-- Writes a file, which need not exist before. -/
  write : Path → List UInt8 → ExceptT FileError m Unit
  makeDirectory : Path → ExceptT FileError m Unit
  /-- Makes an empty file of a new name in a directory; the name is made from the given one. -/
  newTemporary : Path → String → ExceptT FileError m Path
  /-- Moves a file; one that is at the second path already gives way to it. -/
  move : Path → Path → ExceptT FileError m Unit
  /-- Removes a file if it is there. -/
  remove : Path → ExceptT FileError m Unit

namespace FileAccess

variable {m : Type → Type} [Monad m] [FileAccess m]

/-- Goes on after a failure to make a directory if there is one at the path all the same. -/
def acceptDirectory (p : Path) (e : FileError) : ExceptT FileError m Unit := do
  if ← isDirectory p then pure () else throw e

/-- Makes a directory and the parents it lacks; one that exists is left as it is.  Parents are made
only after the directory itself is refused for want of them. -/
def makeDirectories (p : Path) : ExceptT FileError m Unit :=
  tryCatch (makeDirectory p) fun e =>
    match e.fault with
    | .notFound =>
      if _ : p.parts = [] then throw e
      else do
        makeDirectories p.parent
        tryCatch (makeDirectory p) fun e =>
          match e.fault with
          | .notFound => throw e
          | _ => acceptDirectory p e
    | _ => acceptDirectory p e
termination_by p.parts.length
decreasing_by exact Path.parent_parts_length_lt (by assumption)

/-- Replaces a file by a text in one step, so that nobody finds half a file: the text is written
beside it first, and that file is moved to its place.  If the system refuses either, the file beside
it is removed.  It stays if there are no bytes for the text, which is found out only once the file
is there. -/
def replaceFile [Encoding] (p : Path) (text : String) : ExceptT FileError m Unit := do
  makeDirectories p.parent
  let temporary ← newTemporary p.parent p.name
  match Text.encode? text with
  | none => throw ⟨.notEncodable, []⟩
  | some content =>
    tryCatch (do write temporary content; move temporary p) fun e => do
      remove temporary
      throw e

end FileAccess

end RpcBindings
