import RpcBindings.Yaml.Graph.Merge
import RpcBindings.Yaml.Scalar

/-!
# RpcBindings.Yaml.Construction

The datum that a graph describes.  A scalar has its datum at once; a collection is put in a queue
when it is first met, and its content is read when its turn comes, so that the nodes nearest to the
root are read first and of several things that are wrong the one nearest to the root is found.  A
mapping keeps one entry for each key: the last value at the place of the first.  When all content
has been read, the data of the nodes are put together by their numbers, parts before wholes.
-/

namespace RpcBindings.Yaml

/-- A key of a mapping.  The undefined number equals no number, itself included; two of them are
one key only if they have the same origin: the same node, or both the word `.nan`. -/
structure Key where
  datum : Value
  /-- The node that the key comes from; none for the word `.nan`. -/
  origin : Option Nat

namespace Key

/-- Whether two keys are one and the same key of a mapping. -/
def same (a b : Key) : Bool :=
  a.datum.sameKey b.datum || (a.datum.isNan && b.datum.isNan && a.origin == b.origin)

end Key

/-- What is known of the datum of a node.  A collection refers to its parts by their numbers. -/
inductive Part where
  | scalar (key : Key)
  | list (items : List Nat)
  | pairs (pairs : List (Nat × Nat))
  | set (items : List Key)
  | map (entries : List (Key × Nat))

/-- The state of a construction. -/
structure Construction where
  graph : Graph
  /-- What is known of the data of the nodes. -/
  parts : Array (Option Part)
  /-- The collections whose content is still to be read, newest first. -/
  waiting : List Nat

/-- A step of a construction. -/
abbrev Constructing := StateT Construction (Except Error)

namespace Construction

/-! ## Nodes -/

/-- The node of a number. -/
def nodeAt (n : Nat) : Constructing Node := do
  (← get).graph.get? n

/-- Notes what is known of the datum of a node. -/
def note (n : Nat) (part : Part) : Constructing Unit :=
  modify fun s => { s with parts := s.parts.setIfInBounds n (some part) }

/-- Puts a collection in the queue; until its turn it counts as empty. -/
def postpone (n : Nat) (part : Part) : Constructing Part := do
  note n part
  modify fun s => { s with waiting := n :: s.waiting }
  return part

def scalar (n : Nat) (node : Node) : Constructing Part := do
  let text ← (← get).graph.text? n
  let datum ←
    match node.tag, node.content with
    | .timestamp, .mapping _ => throw (.scalar .timestampOfMapping)
    | tag, _ => scalarValue tag text
  let part := .scalar ⟨datum, if isNanWord text.toList then none else some n⟩
  note n part
  return part

/-- What is known of the datum of a node that is met; a node is looked at only once. -/
def meet (n : Nat) : Constructing Part := do
  match ((← get).parts[n]?).join with
  | some part => return part
  | none =>
    let node ← nodeAt n
    match node.tag with
    | .sequence => postpone n (.list [])
    | .mapping => postpone n (.map [])
    | .set => postpone n (.set [])
    | .orderedMapping | .pairs => postpone n (.pairs [])
    | .null | .bool | .int | .float | .text | .binary | .timestamp => scalar n node
    | .merge | .default | .unknown => throw .malformed

/-! ## Content -/

def readItems (n : Nat) : Constructing (List Nat) := do
  match (← nodeAt n).content with
  | .sequence items =>
    for item in items do
      let _ ← meet item
    return items
  | _ => throw .malformed

/-- The entries of a mapping after merging; no key may be a collection. -/
def readEntries (n : Nat) : Constructing (List (Key × Nat)) := do
  let (entries, graph) ← (← get).graph.flatten n
  modify fun s => { s with graph }
  entries.foldlM
    (fun acc (key, value) => do
      match ← meet key with
      | .scalar key =>
        let _ ← meet value
        return Entries.putBy Key.same key value acc
      | _ => throw .malformed)
    []

/-- The pairs of a sequence of mappings, each of a single entry. -/
def readPairs (n : Nat) : Constructing (List (Nat × Nat)) := do
  match (← nodeAt n).content with
  | .sequence items =>
    items.mapM fun item => do
      match (← nodeAt item).content with
      | .mapping [(key, value)] =>
        let _ ← meet key
        let _ ← meet value
        return (key, value)
      | _ => throw .malformed
  | _ => throw .malformed

def fill (n : Nat) : Constructing Unit := do
  match ((← get).parts[n]?).join with
  | some (.list _) => note n (.list (← readItems n))
  | some (.map _) => note n (.map (← readEntries n))
  | some (.set _) => note n (.set ((← readEntries n).map (·.1)))
  | some (.pairs _) => note n (.pairs (← readPairs n))
  | _ => return

/-- Reads the content of the collections in the queue, in their order, and then of those that this
puts in the queue, level by level. -/
def fillAll : Nat → Constructing Unit
  | 0 => return
  | levels + 1 => do
    let waiting := (← get).waiting
    if waiting.isEmpty then return
    modify fun s => { s with waiting := [] }
    waiting.reverse.forM fill
    fillAll levels

/-! ## Data -/

/-- The datum of a node, given those of the nodes before it. -/
def value (data : Array Value) : Option Part → Value
  | none => .null
  | some (.scalar key) => key.datum
  | some (.list items) => .list (items.map (data.getD · .null))
  | some (.pairs pairs) =>
    .list (pairs.map fun (key, value) => .pair (data.getD key .null) (data.getD value .null))
  | some (.set items) => .ofMembers (items.map (·.datum))
  | some (.map entries) =>
    .map (entries.map fun (key, value) => (key.datum, data.getD value .null))

/-- The data of all nodes. -/
def data (parts : Array (Option Part)) : Array Value :=
  parts.foldl (fun data part => data.push (value data part)) #[]

end Construction

/-- The datum that a graph describes from its root on.  There are no more levels than nodes. -/
def Graph.datum (g : Graph) (root : Nat) : Except Error Value := do
  let start : Construction := ⟨g, Array.replicate g.size none, []⟩
  let steps : Constructing Unit := do
    let _ ← Construction.meet root
    Construction.fillAll (g.size + 1)
  let ((), s) ← steps.run start
  return (Construction.data s.parts).getD root .null

end RpcBindings.Yaml
