import RpcBindings.File.Access

/-!
# RpcBindings.File.Tree

A file system in memory.  A place in it is given by the names that lead there from the root; the
root itself is always a directory.  Paths are followed name by name, so that a path through a
missing directory or through a file is refused even where `..` would lead back out of it.
-/

namespace RpcBindings

/-- What can be at a place. -/
inductive FileNode where
  | file (content : List UInt8)
  | directory
deriving DecidableEq

/-- The files and directories below the root, each with its place. -/
structure FileTree where
  nodes : List (List String × FileNode)

namespace FileTree

/-! ## Places -/

def get? (tree : FileTree) (place : List String) : Option FileNode :=
  if place.isEmpty then some .directory else tree.nodes.lookup place

def put (tree : FileTree) (place : List String) (node : FileNode) : FileTree :=
  ⟨(place, node) :: tree.nodes.filter (·.1 != place)⟩

def erase (tree : FileTree) (place : List String) : FileTree :=
  ⟨tree.nodes.filter (·.1 != place)⟩

/-- Looking up a place among the nodes at other places. -/
theorem lookup_filter_ne (nodes : List (List String × FileNode)) (place other : List String) :
    (nodes.filter (·.1 != place)).lookup other =
      if other = place then none else nodes.lookup other := by
  induction nodes with
  | nil => simp
  | cons entry rest ih =>
    obtain ⟨there, node⟩ := entry
    by_cases h : there = place <;> by_cases ho : other = there <;> grind

/-- Below the root there is at a place what was put there, and elsewhere what was there before. -/
theorem get?_put (tree : FileTree) (place : List String) (node : FileNode) (other : List String)
    (h : other ≠ []) :
    (tree.put place node).get? other = if other = place then some node else tree.get? other := by
  unfold get? put
  have hother : other.isEmpty = false := by simpa using h
  rw [hother]
  by_cases hp : other = place
  · simp [hp]
  · have hbeq : (other == place) = false := by simpa using hp
    simp [List.lookup_cons, hbeq, lookup_filter_ne, hp]

/-- Below the root there is nothing at a place that was cleared, and elsewhere what was there
before. -/
theorem get?_erase (tree : FileTree) (place other : List String) (h : other ≠ []) :
    (tree.erase place).get? other = if other = place then none else tree.get? other := by
  have hother : other.isEmpty = false := by simpa using h
  simp [get?, erase, hother, lookup_filter_ne]

/-! ## Following paths -/

section

variable [Encoding]

/-- The most bytes that a name can have. -/
def longestName : Nat := 255

/-- The most bytes that the text of a path can have. -/
def longestPath : Nat := 4095

/-- The place of a name in a directory. -/
def enter (here : List String) (part : String) : Except FileFault (List String) :=
  if longestName < Text.nameSize part then .error .nameTooLong else .ok (here ++ [part])

/-- Follows names from one directory to another. -/
def walk (tree : FileTree) (here : List String) : List String → Except FileFault (List String)
  | [] => .ok here
  | ".." :: rest => tree.walk here.dropLast rest
  | part :: rest => do
    let place ← enter here part
    match tree.get? place with
    | none => .error .notFound
    | some (.file _) => .error .notDirectory
    | some .directory => tree.walk place rest

/-- Whether names from the root end with one that a file can have. -/
def endsInName (parts : List String) : Bool :=
  match parts.getLast? with
  | none | some ".." => false
  | some _ => true

/-- The place that names from the root lead to.  There need not be anything at it, but the
directory that holds it must exist. -/
def locate (tree : FileTree) (parts : List String) : Except FileFault (List String) :=
  if endsInName parts then do enter (← tree.walk [] parts.dropLast) (parts.getLastD "")
  else tree.walk [] parts

/-! ## Operations -/

/-- What is at the end of a path; there is nothing at the end of one that leads nowhere. -/
def find? (tree : FileTree) (parts : List String) : Except FileFault (Option FileNode) :=
  match tree.locate parts with
  | .ok place => .ok (tree.get? place)
  | .error .notFound | .error .notDirectory => .ok none
  | .error fault => .error fault

def read (tree : FileTree) (parts : List String) : Except FileFault (List UInt8) := do
  match tree.get? (← tree.locate parts) with
  | none => .error .notFound
  | some .directory => .error .isDirectory
  | some (.file content) => .ok content

def write (tree : FileTree) (parts : List String) (content : List UInt8) :
    Except FileFault FileTree := do
  let place ← tree.locate parts
  match tree.get? place with
  | some .directory => .error .isDirectory
  | _ => .ok (tree.put place (.file content))

def makeDirectory (tree : FileTree) (parts : List String) : Except FileFault FileTree := do
  let place ← tree.locate parts
  match tree.get? place with
  | some _ => .error .present
  | none => .ok (tree.put place .directory)

/-- Makes an empty file at a place where there is nothing yet. -/
def newFile (tree : FileTree) (parts : List String) : Except FileFault FileTree := do
  let place ← tree.locate parts
  match tree.get? place with
  | some _ => .error .present
  | none => .ok (tree.put place (.file []))

/-- Moves a file to the place of another or to a free one. -/
def move (tree : FileTree) (source target : List String) : Except FileFault FileTree := do
  let origin ← tree.locate source
  let place ← tree.locate target
  if !endsInName target then .error .busy
  else
    match tree.get? origin, tree.get? place with
    | some (.file _), some .directory => .error .isDirectory
    | some (.file content), _ => .ok ((tree.erase origin).put place (.file content))
    | some .directory, _ => .error .isDirectory
    | none, _ => .error .notFound

def remove (tree : FileTree) (parts : List String) : FileTree :=
  match tree.locate parts with
  | .error _ => tree
  | .ok place =>
    match tree.get? place with
    | some (.file _) => tree.erase place
    | _ => tree

end

end FileTree

/-- An operation that the system refuses for a reason that is not in the tree. -/
structure Refusal where
  fault : FileFault
  isOfSystem : fault.isOfSystem = true
  /-- How many bytes a write gets through before it is refused; nothing if it does not even get to
  open the file. -/
  written : Option Nat

/-- A tree of files, the directory that relative paths start at, and the middle parts that the names
of temporary files are given. -/
structure Workspace where
  tree : FileTree
  directory : Path
  temporaryParts : List String
  /-- Which of the next operations are refused; those after them are not. -/
  refusals : List (Option Refusal) := []

namespace Workspace

/-- The refusal of the next operation, if it is refused. -/
def refusal? (w : Workspace) : Option Refusal :=
  w.refusals.head?.join

/-- The workspace after an operation that leaves this tree. -/
def next (w : Workspace) (tree : FileTree) : Workspace :=
  { w with tree, refusals := w.refusals.tail }

variable [Encoding]

/-- The names from the root that a path stands for. -/
def parts (w : Workspace) (p : Path) : Except FileFault (List String) :=
  if FileTree.longestPath < Text.nameSize p.text then .error .nameTooLong
  else .ok (w.directory.join p).parts

/-- Runs an operation on some paths, which gives a result and the tree that it leaves.  One that is
refused leaves the tree `broken`; one that the system is not handed cannot be refused by it. -/
def operate {α : Type} (paths : List Path) (operation : Workspace → Except FileFault (α × FileTree))
    (broken : Workspace → Refusal → FileTree) : ExceptT FileError (StateM Workspace) α :=
  ExceptT.mk fun w =>
    match paths.findSome? Path.fault?, w.refusal? with
    | some fault, _ => (.error ⟨fault, paths.map Path.text⟩, w.next w.tree)
    | none, some refusal =>
      (.error ⟨refusal.fault, paths.map Path.text⟩, w.next (broken w refusal))
    | none, none =>
      match operation w with
      | .ok (a, tree) => (.ok a, w.next tree)
      | .error fault => (.error ⟨fault, paths.map Path.text⟩, w.next w.tree)

/-- Runs an operation that reads the tree. -/
def inspect {α : Type} (p : Path) (operation : FileTree → List String → Except FileFault α) :
    ExceptT FileError (StateM Workspace) α :=
  operate [p] (fun w => do return (← operation w.tree (← w.parts p), w.tree)) fun w _ => w.tree

/-- Runs an operation that changes the tree, or leaves it as it is where it is refused. -/
def change (paths : List Path) (operation : Workspace → Except FileFault FileTree) :
    ExceptT FileError (StateM Workspace) Unit :=
  operate paths (fun w => do return ((), ← operation w)) fun w _ => w.tree

/-- What is at the end of a path; one that cannot be handed to the system leads nowhere. -/
def find? (p : Path) : ExceptT FileError (StateM Workspace) (Option FileNode) :=
  if p.fault?.isSome then return none else inspect p FileTree.find?

/-- The tree after a write. -/
def treeAfterWrite (p : Path) (content : List UInt8) (w : Workspace) :
    Except FileFault FileTree := do
  w.tree.write (← w.parts p) content

/-- Writes a file.  A write that is refused in the middle leaves the bytes that it got through. -/
def write (p : Path) (content : List UInt8) : ExceptT FileError (StateM Workspace) Unit :=
  operate [p] (fun w => do return ((), ← w.treeAfterWrite p content)) fun w refusal =>
    match refusal.written with
    | none => w.tree
    | some count => (w.treeAfterWrite p (content.take count)).toOption.getD w.tree

/-- Makes an empty file under the first of some names that is free in a directory. -/
def newTemporary (directory : Path) : List String → ExceptT FileError (StateM Workspace) Path
  | [] => throw ⟨.noFreeName, []⟩
  | name :: names =>
    let path := directory.child name
    tryCatch (do change [path] (fun w => do w.tree.newFile (← w.parts path)); return path) fun e =>
      if e.fault = .present then newTemporary directory names else throw e

/-- The names that a temporary file beside a file of this name can have. -/
def temporaryNames (w : Workspace) (name : String) : List String :=
  w.temporaryParts.map fun part => s!".{name}.{part}.tmp"

instance : FileAccess (StateM Workspace) where
  currentDirectory := return (← get).directory
  isPresent p := return (← find? p).isSome
  isDirectory p := return (← find? p) == some .directory
  read p := inspect p FileTree.read
  write := write
  makeDirectory p := change [p] fun w => do w.tree.makeDirectory (← w.parts p)
  newTemporary p name := do
    let w ← get
    newTemporary (w.directory.join p).collapse (w.temporaryNames name)
  move p q := change [p, q] fun w => do w.tree.move (← w.parts p) (← w.parts q)
  remove p := change [p] fun w => return w.tree.remove (← w.parts p)

end Workspace

end RpcBindings
