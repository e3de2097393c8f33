import RpcBindings.Yaml.Tag

/-!
# RpcBindings.Yaml.Graph

The nodes of a document.  Each node has a number, by which the collections that hold it refer to
it; an alias is a further reference to the same node.  A node is numbered when it is complete, so
the parts of a collection have smaller numbers than the collection.
-/

namespace RpcBindings.Yaml

/-- What a node consists of; the parts of a collection are given by their numbers. -/
inductive Content where
  | scalar (text : String)
  | sequence (items : List Nat)
  | mapping (entries : List (Nat × Nat))

/-- A node of a document. -/
structure Node where
  tag : Tag
  content : Content

/-- The node that stands where nothing is written. -/
def Node.empty : Node := ⟨.null, .scalar ""⟩

/-- The nodes of a document, each at the place of its number. -/
structure Graph where
  nodes : Array Node

namespace Graph

def empty : Graph := ⟨#[]⟩

def size (g : Graph) : Nat := g.nodes.size

def get? (g : Graph) (n : Nat) : Option Node := g.nodes[n]?

/-- Adds a node, whose number is the size of the graph so far. -/
def add (g : Graph) (node : Node) : Graph := ⟨g.nodes.push node⟩

def set (g : Graph) (n : Nat) (node : Node) : Graph := ⟨g.nodes.setIfInBounds n node⟩

@[simp] theorem size_add (g : Graph) (node : Node) : (g.add node).size = g.size + 1 := by
  simp [size, add]

@[simp] theorem size_set (g : Graph) (n : Nat) (node : Node) : (g.set n node).size = g.size := by
  simp [size, set]

/-- A node that is added comes after all others and changes none of them. -/
theorem get?_add (g : Graph) (node : Node) (n : Nat) :
    (g.add node).get? n = if n = g.size then some node else g.get? n :=
  Array.getElem?_push

/-- A node that is replaced stands at its number, and all others are what they were. -/
theorem get?_set (g : Graph) (n other : Nat) (node : Node) (h : n < g.size) :
    (g.set n node).get? other = if n = other then some node else g.get? other := by
  simp only [get?, set, Array.getElem?_setIfInBounds]
  split
  · subst_vars
    simp [show other < g.nodes.size from h]
  · rfl

/-- The text of a scalar; a mapping with a key `=` stands for what is written under it. -/
def textIn (g : Graph) : Nat → Nat → Option String
  | 0, _ => none
  | fuel + 1, n =>
    match g.get? n with
    | some ⟨_, .scalar text⟩ => some text
    | some ⟨_, .mapping entries⟩ =>
      match entries.find? fun (key, _) => (g.get? key).any (·.tag == .default) with
      | some (_, value) => g.textIn fuel value
      | none => none
    | _ => none

/-- The text that a node has as a scalar. -/
def text? (g : Graph) (n : Nat) : Option String :=
  g.textIn (g.size + 1) n

end Graph

end RpcBindings.Yaml
