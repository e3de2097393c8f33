import RpcBindings.Value.Loader
import RpcBindings.Yaml.Construction
import RpcBindings.Yaml.Graph.Parser

/-!
# RpcBindings.Yaml.Document

The datum that a document describes.
-/

namespace RpcBindings.Yaml.Document

def read (text : List Char) : Except Error Value := do
  let (root, graph) ← Graph.ofText text
  graph.datum root

/-- What becomes of a text that is read as a document. -/
def load (text : List Char) : Loaded :=
  match read text with
  | .ok v => .datum v
  | .error .malformed => .malformed
  | .error (.scalar e) => .broken ⟨e.kind, e.message⟩
  | .error .beyond => .beyond

end RpcBindings.Yaml.Document
