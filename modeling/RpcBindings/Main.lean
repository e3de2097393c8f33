import RpcBindings.CommandLine.Report
import RpcBindings.Host

/-!
# RpcBindings.Main

The program: runs its command line on the files of the machine.
-/

namespace RpcBindings

open scoped Host

/-- The number of an error of the operating system, which some of its interfaces give with a minus
sign. -/
def systemNumber (n : UInt32) : Nat :=
  if n < 0x80000000 then n.toNat else (0 - n).toNat

def FileFault.ofNumber (number : Nat) (wording : String) : FileFault :=
  match number with
  | 2 => .notFound
  | 16 => .busy
  | 17 => .present
  | 20 => .notDirectory
  | 21 => .isDirectory
  | 36 => .nameTooLong
  | number => .other number wording

/-- What an error of the operating system says about a file. -/
def FileFault.ofSystem (e : IO.Error) : FileFault :=
  match e with
  | .noFileOrDirectory .. => .notFound
  | .alreadyExists .. => .present
  | .resourceBusy .. => .busy
  | .inappropriateType _ n wording | .invalidArgument _ n wording | .permissionDenied _ n wording
  | .resourceExhausted _ n wording | .otherError n wording => .ofNumber (systemNumber n) wording
  | e => .other 5 (toString e)

/-- Runs an operation on the files of the machine. -/
def onMachine {α : Type} (paths : List Path) (operation : IO α) : ExceptT FileError IO α :=
  ExceptT.mk do
    if let some fault := paths.findSome? Path.fault? then
      return .error ⟨fault, paths.map Path.text⟩
    try
      return .ok (← operation)
    catch e =>
      return .error ⟨.ofSystem e, paths.map Path.text⟩

/-- What there is at a path, if anything; nothing is at one that leads nowhere. -/
def machineType? (p : Path) : ExceptT FileError IO (Option IO.FS.FileType) :=
  tryCatch
    (onMachine [p] do return some (← ((← IO.currentDir) / p.text).metadata).type)
    fun e =>
      match e.fault with
      | .notFound | .notDirectory | .nullInPath | .notEncodable => return none
      | _ => throw e

/-- A part of a name that nobody else is likely to choose. -/
def randomPart : IO String := do
  let letters := "abcdefghijklmnopqrstuvwxyz0123456789_".toList
  let drawn ← (List.range 8).mapM fun _ => IO.rand 0 (letters.length - 1)
  return String.ofList (drawn.filterMap fun n => letters[n]?)

instance : FileAccess IO where
  currentDirectory := return Path.ofString (toString (← IO.currentDir))
  isPresent p := return (← machineType? p).isSome
  isDirectory p := return (← machineType? p) == some .dir
  read p := do
    if (← machineType? p) == some .dir then throw ⟨.isDirectory, [p.text]⟩
    onMachine [p] do return (← IO.FS.readBinFile p.text).data.toList
  write p content := onMachine [p] do IO.FS.writeBinFile p.text ⟨content.toArray⟩
  makeDirectory p := onMachine [p] (IO.FS.createDir p.text)
  newTemporary p name := do
    let here := Path.ofString (toString (← IO.currentDir))
    let path := (here.join p).collapse.child s!".{name}.{← randomPart}.tmp"
    onMachine [path] do
      discard <| IO.FS.Handle.mk path.text .writeNew
      return path
  move p q := onMachine [p, q] (IO.FS.rename p.text q.text)
  remove p := tryCatch (onMachine [p] (IO.FS.removeFile p.text)) fun e =>
    if e.fault = .notFound then pure () else throw e

end RpcBindings

open scoped RpcBindings.Host in
def main (arguments : List String) : IO UInt32 := do
  let report ← RpcBindings.runArguments arguments
  IO.print report.output
  IO.eprint report.errorOutput
  return report.exitCode.toUInt32
