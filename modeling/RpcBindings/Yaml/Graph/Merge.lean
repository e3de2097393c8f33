import RpcBindings.Yaml.Graph

/-!
# RpcBindings.Yaml.Graph.Merge

Merge keys.  Under the key `<<` a mapping names others whose entries it takes over: they come
before its own entries, which override them as later entries do, and of several mappings in a list
the first overrides the rest.  The mappings named take over what they merge themselves.  What is
taken over becomes part of the node, so that later references find it there; so does the plain text
that a key `=` of the mapping is read as.
-/

namespace RpcBindings.Yaml

/-- Changes to a graph; none is possible where something other than mappings is to be merged. -/
abbrev Merging := StateT Graph Option

namespace Graph

def nodeAt (n : Nat) : Merging Node := do
  (← get).get? n

/-- The entries that a key and its value contribute: on the left those to take over, on the right
those of the mapping itself.  Mappings to take over are flattened by `flatten`. -/
def contribution (flatten : Nat → Merging (List (Nat × Nat))) (entry : Nat × Nat) :
    Merging (List (Nat × Nat) × List (Nat × Nat)) := do
  let key ← nodeAt entry.1
  match key.tag with
  | .merge =>
    match (← nodeAt entry.2).content with
    | .mapping _ => return (← flatten entry.2, [])
    | .sequence items => return ((← items.mapM flatten).reverse.flatten, [])
    | .scalar _ => failure
  | .default =>
    modify fun g => g.set entry.1 { key with tag := .text }
    return ([], [entry])
  | _ => return ([], [entry])

/-- The entries of a mapping after merging, which are its entries from now on. -/
def flattenIn : Nat → Nat → Merging (List (Nat × Nat))
  | 0, _ => failure
  | fuel + 1, n => do
    match (← nodeAt n).content with
    | .mapping entries =>
      let parts ← entries.mapM (contribution (flattenIn fuel))
      let merged := parts.flatMap (·.1) ++ parts.flatMap (·.2)
      let node ← nodeAt n
      modify fun g => g.set n { node with content := .mapping merged }
      return merged
    | _ => failure

/-- The entries of a mapping after merging, and the graph in which they are its entries; `none` if
the node is no mapping or merges something else. -/
def flatten (g : Graph) (n : Nat) : Option (List (Nat × Nat) × Graph) :=
  (flattenIn (g.size + 1) n).run g

end Graph

end RpcBindings.Yaml
