import RpcBindings.File.Error
import RpcBindings.Text.Encoding
import RpcBindings.Text.Split

/-!
# RpcBindings.File.Path

File paths: where a path starts and the names that lead on from there.  Slashes separate names;
empty names and the name `.` are dropped on reading, since they lead nowhere, while `..` is kept
until the path is collapsed.  A path that begins with exactly two slashes is told apart from one
that begins with one, as POSIX leaves its meaning open.
-/

namespace RpcBindings

/-- Where a path starts. -/
inductive PathStart where
  /-- At the current directory. -/
  | here
  /-- At the root. -/
  | root
  /-- At the root, written with two slashes. -/
  | doubleRoot
deriving DecidableEq

/-- The slashes that a path starts with. -/
def PathStart.text : PathStart → String
  | .here => ""
  | .root => "/"
  | .doubleRoot => "//"

/-- A file path. -/
structure Path where
  start : PathStart
  parts : List String
deriving DecidableEq

namespace Path

/-! ## Reading and printing -/

/-- Where a path of this text starts. -/
def startOf (s : String) : PathStart :=
  match (s.toList.takeWhile (· == '/')).length with
  | 0 => .here
  | 2 => .doubleRoot
  | _ => .root

/-- Whether a name between slashes leads anywhere. -/
def isStep (part : String) : Bool :=
  part != "" && part != "."

/-- The path of a text. -/
def ofString (s : String) : Path :=
  ⟨startOf s, (Text.split '/' s).filter isStep⟩

/-- The text of a path; the current directory itself is written as a point. -/
def text (p : Path) : String :=
  match p.start, p.parts with
  | .here, [] => "."
  | start, parts => start.text ++ "/".intercalate parts

/-- What keeps a path from the operating system, if anything: there are no bytes for it, or the
character U+0000 is in it. -/
def fault? [Encoding] (p : Path) : Option FileFault :=
  if !p.parts.all Text.hasNameBytes then some .notEncodable
  else if p.parts.any (·.toList.contains '\x00') then some .nullInPath
  else none

/-! ## Parts -/

def isAbsolute (p : Path) : Bool :=
  p.start != .here

def name (p : Path) : String :=
  p.parts.getLastD ""

def parent (p : Path) : Path :=
  { p with parts := p.parts.dropLast }

/-- The path of a name in the directory `p`. -/
def child (p : Path) (name : String) : Path :=
  { p with parts := p.parts ++ [name] }

/-- The path `q` as seen from the directory `p`. -/
def join (p q : Path) : Path :=
  if q.isAbsolute then q else { p with parts := p.parts ++ q.parts }

/-- The directory of an entry is the one that it was named in. -/
@[simp] theorem parent_child (p : Path) (name : String) : (p.child name).parent = p := by
  simp [parent, child]

/-- The last name of an entry is the one that it was given. -/
@[simp] theorem name_child (p : Path) (name : String) : (p.child name).name = name := by
  simp [Path.name, child]

/-- An absolute path is where it is, from wherever it is seen. -/
theorem join_of_isAbsolute {p q : Path} (h : q.isAbsolute = true) : p.join q = q := by
  simp [join, h]

/-- The parent is nearer to the start. -/
theorem parent_parts_length_lt {p : Path} (h : p.parts ≠ []) :
    p.parent.parts.length < p.parts.length := by
  have := List.length_pos_iff.mpr h
  simp only [parent, List.length_dropLast]
  omega

/-! ## Collapsing -/

/-- Follows one name from a place given by the names that lead to it; above the root is the root. -/
def follow (place : List String) (part : String) : List String :=
  if part == ".." then place.dropLast else place ++ [part]

/-- The name `..` leads one directory up, and from the root back to the root. -/
theorem follow_up (place : List String) : follow place ".." = place.dropLast := rfl

/-- Every other name leads into the directory of that name. -/
theorem follow_of_ne {part : String} (h : part ≠ "..") (place : List String) :
    follow place part = place ++ [part] := by
  simp [follow, h]

/-- A path without `..`: each one takes back the name before it. -/
def collapse (p : Path) : Path :=
  { p with parts := p.parts.foldl follow [] }

/-- The path `q`, as seen from the absolute directory `p`, in collapsed form from the root. -/
def resolve (p q : Path) : Path :=
  { (p.join q).collapse with start := .root }

end Path

end RpcBindings
