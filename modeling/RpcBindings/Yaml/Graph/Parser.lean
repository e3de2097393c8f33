import RpcBindings.Yaml.Graph
import RpcBindings.Yaml.Token.Lexer

/-!
# RpcBindings.Yaml.Graph.Parser

The graph of a document.  Anchors name nodes for the rest of the document, each at most once, and
an alias refers to a node that is complete.  Tokens are read only as they are needed, so of
several things that are wrong with a text the one that comes first is found.
-/

namespace RpcBindings.Yaml

/-- What has been read so far, and the names known. -/
structure ParserState where
  lexer : Lexer
  graph : Graph
  /-- What each tag handle stands for. -/
  handles : List (String × String)
  /-- The numbers of the anchored nodes; a node that is still being read has none yet. -/
  anchors : List (String × Option Nat)

/-- A reader of tokens that may fail. -/
abbrev Parser := StateT ParserState (Except Error)

/-- Where a node stands, which decides what it may be. -/
inductive Place where
  /-- Between brackets. -/
  | flow
  /-- In a block collection. -/
  | block
  /-- As a key or value of a block mapping, where a sequence need not be indented. -/
  | mappingBlock
deriving DecidableEq

namespace Parser

/-! ## Tokens -/

/-- The next token; none is left at the end of the text. -/
def peek : Parser (Option Token) := do
  let lexer ← (← get).lexer.settle
  modify fun s => { s with lexer }
  return lexer.queue.head?

/-- Whether the next token is one of these. -/
def nextIn (ts : List Token) : Parser Bool := do
  return (← peek).any ts.contains

def skip : Parser Unit := do
  let _ ← peek
  modify fun s => { s with lexer := s.lexer.take }

def fail {α : Type} : Parser α :=
  throw .malformed

/-- Passes over the next token, which must be `t`. -/
def expect (t : Token) : Parser Unit := do
  if ← nextIn [t] then skip else fail

/-! ## Nodes and their names -/

/-- Adds a node to the graph, and gives its number. -/
def add (tag : Tag) (content : Content) : Parser Nat := do
  modifyGet fun s => (s.graph.size, { s with graph := s.graph.add ⟨tag, content⟩ })

def addEmpty : Parser Nat :=
  add Node.empty.tag Node.empty.content

/-- Marks the start of an anchored node. -/
def openAnchor : Option String → Parser Unit
  | none => return
  | some name => do
    if ((← get).anchors.lookup name).isSome then fail
    else modify fun s => { s with anchors := (name, none) :: s.anchors }

/-- Marks the end of an anchored node. -/
def closeAnchor (node : Nat) : Option String → Parser Unit
  | none => return
  | some name => modify fun s => { s with anchors := (name, some node) :: s.anchors }

/-- The node that an alias refers to; one that is still being read would hold itself. -/
def named (name : String) : Parser Nat := do
  match (← get).anchors.lookup name with
  | some (some node) => return node
  | some none => throw .beyond
  | none => fail

def anchor : Parser (Option String) := do
  match ← peek with
  | some (.anchor name) => skip; return some name
  | _ => return none

/-- The tag before a node, with its handle, if there is one. -/
def tag : Parser (Option (Option String × String)) := do
  match ← peek with
  | some (.tag handle suffix) => skip; return some (handle, suffix)
  | _ => return none

/-- The full name of a tag. -/
def tagName : Option (Option String × String) → Parser (Option String)
  | none => return none
  | some (none, suffix) => return some suffix
  | some (some handle, suffix) => do
    match (← get).handles.lookup handle with
    | some expansion => return some (expansion ++ suffix)
    | none => fail

/-- The anchor and the name of the tag before a node; they stand in either order. -/
def properties : Parser (Option String × Option String) := do
  match ← anchor with
  | some name => return (some name, ← tagName (← tag))
  | none =>
    let stated ← tag
    let name ← anchor
    return (name, ← tagName stated)

/-- The tag of a collection: `!` states none. -/
def collectionTag (stated : Option String) (usual : Tag) : Tag :=
  match stated with
  | none => usual
  | some name => if name == "!" then usual else .ofName name

/-- The tag of a scalar: by its form if it is plain or marked by `!`, text if it is quoted. -/
def scalarTag (stated : Option String) (plain : Bool) (text : String) : Tag :=
  match stated with
  | none => if plain then .ofPlain text.toList else .text
  | some name => if name == "!" then .ofPlain text.toList else .ofName name

/-- A node of which only an anchor or a tag is written. -/
def emptyContent (marked : Bool) (stated : Option String) : Parser Nat :=
  if marked then add (scalarTag stated true "") (.scalar "") else fail

mutual

def node : Nat → Place → Parser Nat
  | 0, _ => fail
  | fuel + 1, place => do
    match ← peek with
    | some (.alias name) => skip; named name
    | _ =>
      let (name, stated) ← properties
      let _ ← peek
      openAnchor name
      let node ← content fuel place (name.isSome || stated.isSome) stated
      closeAnchor node name
      return node

/-- A node after its anchor and tag; where one of them is `marked`, nothing need follow. -/
def content : Nat → Place → Bool → Option String → Parser Nat
  | 0, _, _, _ => fail
  | fuel + 1, place, marked, stated => do
    match ← peek with
    | some (.scalar text plain) =>
      skip
      add (scalarTag stated plain text) (.scalar text)
    | some .flowSequenceStart =>
      skip
      add (collectionTag stated .sequence) (.sequence (← flowItems fuel true))
    | some .flowMappingStart =>
      skip
      add (collectionTag stated .mapping) (.mapping (← flowEntries fuel true))
    | some .blockEntry =>
      if place == .mappingBlock then
        add (collectionTag stated .sequence) (.sequence (← compactItems fuel))
      else emptyContent marked stated
    | some .blockSequenceStart =>
      if place == .flow then emptyContent marked stated
      else
        skip
        add (collectionTag stated .sequence) (.sequence (← blockItems fuel))
    | some .blockMappingStart =>
      if place == .flow then emptyContent marked stated
      else
        skip
        add (collectionTag stated .mapping) (.mapping (← blockEntries fuel))
    | _ => emptyContent marked stated

/-- A node, or nothing where one of the given tokens follows. -/
def nodeUnless : Nat → Place → List Token → Parser Nat
  | 0, _, _ => fail
  | fuel + 1, place, ends => do
    if ← nextIn ends then addEmpty else node fuel place

/-- The value after a key: nothing where there is no `:`. -/
def valueUnless : Nat → Place → List Token → Parser Nat
  | 0, _, _ => fail
  | fuel + 1, place, ends => do
    if ← nextIn [.value] then
      skip
      nodeUnless fuel place ends
    else addEmpty

/-- The items of a block sequence, up to its end. -/
def blockItems : Nat → Parser (List Nat)
  | 0 => fail
  | fuel + 1 => do
    if ← nextIn [.blockEntry] then
      skip
      let item ← nodeUnless fuel .block [.blockEntry, .blockEnd]
      return item :: (← blockItems fuel)
    else
      expect .blockEnd
      return []

/-- The items of a sequence that is not indented inside its mapping. -/
def compactItems : Nat → Parser (List Nat)
  | 0 => fail
  | fuel + 1 => do
    if ← nextIn [.blockEntry] then
      skip
      let item ← nodeUnless fuel .block [.blockEntry, .key, .value, .blockEnd]
      return item :: (← compactItems fuel)
    else return []

/-- The entries of a block mapping, up to its end. -/
def blockEntries : Nat → Parser (List (Nat × Nat))
  | 0 => fail
  | fuel + 1 => do
    if ← nextIn [.key] then
      skip
      let ends := [Token.key, .value, .blockEnd]
      let key ← nodeUnless fuel .mappingBlock ends
      let value ← valueUnless fuel .mappingBlock ends
      return (key, value) :: (← blockEntries fuel)
    else
      expect .blockEnd
      return []

/-- The items of a flow sequence, up to its bracket.  An entry with a key is a mapping of its
own. -/
def flowItems : Nat → Bool → Parser (List Nat)
  | 0, _ => fail
  | fuel + 1, first => do
    if ← nextIn [.flowSequenceEnd] then
      skip
      return []
    if !first then expect .flowEntry
    if ← nextIn [.flowSequenceEnd] then
      skip
      return []
    if ← nextIn [.key] then
      skip
      let key ← nodeUnless fuel .flow [.value, .flowEntry, .flowSequenceEnd]
      let value ← valueUnless fuel .flow [.flowEntry, .flowSequenceEnd]
      let item ← add .mapping (.mapping [(key, value)])
      return item :: (← flowItems fuel false)
    let item ← node fuel .flow
    return item :: (← flowItems fuel false)

/-- The entries of a flow mapping, up to its brace.  A key may stand alone. -/
def flowEntries : Nat → Bool → Parser (List (Nat × Nat))
  | 0, _ => fail
  | fuel + 1, first => do
    if ← nextIn [.flowMappingEnd] then
      skip
      return []
    if !first then expect .flowEntry
    if ← nextIn [.flowMappingEnd] then
      skip
      return []
    if ← nextIn [.key] then
      skip
      let key ← nodeUnless fuel .flow [.value, .flowEntry, .flowMappingEnd]
      let value ← valueUnless fuel .flow [.flowEntry, .flowMappingEnd]
      return (key, value) :: (← flowEntries fuel false)
    let key ← node fuel .flow
    return (key, ← addEmpty) :: (← flowEntries fuel false)

end

/-! ## Documents -/

/-- The handles that stand for something without being defined. -/
def usualHandles : List (String × String) :=
  [("!", "!"), ("!!", standardTagPrefix)]

/-- The directives at the head of a document, up to its mark: at most one version, of major number
1, and no handle defined twice.  The handles that they define are added to those given. -/
def directives : Nat → Bool → List (String × String) → Parser (List (String × String))
  | 0, _, _ => fail
  | fuel + 1, versioned, handles => do
    match ← peek with
    | some (.version major) =>
      if versioned || major != 1 then fail
      skip
      directives fuel true handles
    | some (.tagHandle handle uri) =>
      if (handles.lookup handle).isSome then fail
      skip
      directives fuel versioned ((handle, uri) :: handles)
    | some .directive =>
      skip
      directives fuel versioned handles
    | some .documentStart =>
      skip
      return handles
    | _ => fail

/-- Whether a document starts explicitly with this token: a directive or its mark. -/
def startsExplicitly : Token → Bool
  | .version _ | .tagHandle _ _ | .directive | .documentStart => true
  | _ => false

/-- Passes over the marks that end a document. -/
def skipEnds : Nat → Parser Unit
  | 0 => fail
  | fuel + 1 => do
    if ← nextIn [.documentEnd] then
      skip
      skipEnds fuel

/-- The content of a document after its mark, which may be nothing. -/
def explicitContent (fuel : Nat) : Parser Nat := do
  match ← peek with
  | none => addEmpty
  | some token =>
    if token == .documentEnd || startsExplicitly token then addEmpty else node fuel .block

/-- The root of the single document of a text; nothing is an empty document, and a further document
is a fault. -/
def document (fuel : Nat) : Parser Nat := do
  match ← peek with
  | none => addEmpty
  | some token =>
    let root ←
      if startsExplicitly token then do
        let handles ← directives fuel false []
        modify fun s => { s with handles := handles ++ usualHandles }
        explicitContent fuel
      else node fuel .block
    skipEnds fuel
    if (← peek).isSome then
      let _ ← directives fuel false []
      fail
    return root

end Parser

/-- The graph of the single document that a text holds, and the number of its root. -/
def Graph.ofText (text : List Char) : Except Error (Nat × Graph) := do
  if !text.all isDocumentChar then throw .malformed
  let start : ParserState := ⟨Lexer.start text, .empty, Parser.usualHandles, []⟩
  let (root, s) ← (Parser.document (16 * text.length + 32)).run start
  return (root, s.graph)

end RpcBindings.Yaml
