import RpcBindings.Text.Quoted

/-!
# RpcBindings.File.Error

Why an operation on files fails.
-/

namespace RpcBindings

/-- What stands in the way of an operation on files. -/
inductive FileFault where
  | notFound
  | present
  | notDirectory
  | isDirectory
  /-- The root, or the parent of a directory, can be no target of a move. -/
  | busy
  /-- Every name tried for a temporary file is taken. -/
  | noFreeName
  /-- A name has more than 255 bytes, or a path more than 4095. -/
  | nameTooLong
  /-- A path holds the character U+0000, so that it cannot be handed to the operating system. -/
  | nullInPath
  /-- There are no bytes for a character of a path or of what is to be written. -/
  | notEncodable
  /-- Any other fault, by the number and the wording of the operating system. -/
  | other (number : Nat) (wording : String)
deriving DecidableEq

namespace FileFault

/-- Whether a fault is one of the operating system.  The others keep an operation from it. -/
def isOfSystem : FileFault → Bool
  | .nullInPath | .notEncodable => false
  | _ => true

/-- The number that POSIX systems give a fault, if it is one of theirs. -/
def number : FileFault → Nat
  | .nullInPath | .notEncodable => 0
  | .notFound => 2
  | .busy => 16
  | .present | .noFreeName => 17
  | .notDirectory => 20
  | .isDirectory => 21
  | .nameTooLong => 36
  | .other number _ => number

def wording : FileFault → String
  | .notFound => "No such file or directory"
  | .busy => "Device or resource busy"
  | .present => "File exists"
  | .noFreeName => "No usable temporary file name found"
  | .notDirectory => "Not a directory"
  | .isDirectory => "Is a directory"
  | .nameTooLong => "File name too long"
  | .nullInPath => "embedded null byte"
  | .notEncodable => "surrogates not allowed"
  | .other _ wording => wording

end FileFault

/-- A fault and the paths that it concerns. -/
structure FileError where
  fault : FileFault
  paths : List String
deriving DecidableEq

/-- The wording of a file error; of a move it names both ends. -/
def FileError.message (e : FileError) : String :=
  if !e.fault.isOfSystem then e.fault.wording
  else
    let names := match e.paths with
      | [] => ""
      | paths => ": " ++ " -> ".intercalate (paths.map Text.quoted)
    s!"[Errno {e.fault.number}] {e.fault.wording}{names}"

end RpcBindings
