import RpcBindings.Yaml.Token.Property
import RpcBindings.Yaml.Token.Scalar

/-!
# RpcBindings.Yaml.Token.Lexer

The tokens of a text, one at a time.  Indentation opens and closes block collections: the lexer
keeps the columns of the open ones.  A mapping key is recognised only at the `:` after it, so each
position where a key may begin is remembered as a candidate, one for every level of open brackets,
and the key token is put in front of it when the `:` comes.  A candidate holds on its own line and
for 1024 characters.  So a token is given out only when nothing can come in front of it any more,
and the text is read no further than that takes: what is wrong with the rest of a text does not
matter until the tokens before it have been taken.
-/

namespace RpcBindings.Yaml

/-- A token that may turn out to begin a key. -/
structure KeyCandidate where
  /-- The number of tokens before it. -/
  tokenIndex : Nat
  /-- Nothing but a key can stand here. -/
  required : Bool
  index : Nat
  line : Nat
  column : Nat

/-- What has been read of a text so far. -/
structure Lexer where
  cursor : Cursor
  /-- The tokens that have been read and not yet taken. -/
  queue : List Token
  /-- How many tokens have been taken. -/
  taken : Nat
  /-- Whether the text has been read to its end. -/
  finished : Bool
  /-- The columns of the open block collections, innermost first. -/
  indents : List Nat
  /-- Whether a key without a `?` may begin here. -/
  allowKey : Bool
  /-- The candidate of the current level. -/
  candidate : Option KeyCandidate
  /-- The candidates of the enclosing levels, one for each open bracket. -/
  outer : List (Option KeyCandidate)

namespace Lexer

/-- The lexer at the start of a text. -/
def start (text : List Char) : Lexer where
  cursor := Cursor.start text
  queue := []
  taken := 0
  finished := false
  indents := []
  allowKey := true
  candidate := none
  outer := []

/-- The number of the next token to be read. -/
def nextIndex (s : Lexer) : Nat :=
  s.taken + s.queue.length

/-- Whether the position is inside brackets. -/
def inFlow (s : Lexer) : Bool :=
  !s.outer.isEmpty

/-- The column of the innermost block collection; `-1` outside all of them. -/
def indent (s : Lexer) : Int :=
  match s.indents with
  | [] => -1
  | column :: _ => column

def push (s : Lexer) (t : Token) : Lexer :=
  { s with queue := s.queue ++ [t] }

/-- Puts a token in front of the one of a given number. -/
def insert (s : Lexer) (index : Nat) (t : Token) : Lexer :=
  { s with queue := s.queue.insertIdx (index - s.taken) t }

/-- Ends the block collections that the current column is left of; inside brackets indentation
does not count. -/
def unwind (s : Lexer) (column : Int) : Lexer :=
  if s.inFlow then s
  else
    let closed := s.indents.takeWhile fun (top : Nat) => column < top
    { s with
      indents := s.indents.drop closed.length
      queue := s.queue ++ closed.map fun _ => .blockEnd }

/-- Drops the candidate of this level; a required one must not be dropped. -/
def dropCandidate (s : Lexer) : Except Error Lexer :=
  match s.candidate with
  | some k => if k.required then .error .malformed else .ok { s with candidate := none }
  | none => .ok s

/-- A candidate that is out of reach is dropped, which is a fault for a required one. -/
def stillReachable (c : Cursor) : Option KeyCandidate → Except Error (Option KeyCandidate)
  | none => .ok none
  | some k =>
    if k.line != c.line || c.index - k.index > 1024 then
      if k.required then .error .malformed else .ok none
    else .ok (some k)

/-- Drops the candidates that are out of reach. -/
def dropStale (s : Lexer) : Except Error Lexer := do
  let candidate ← stillReachable s.cursor s.candidate
  let outer ← s.outer.mapM (stillReachable s.cursor)
  return { s with candidate, outer }

/-- Remembers the next token as a candidate, where a key may begin. -/
def saveCandidate (s : Lexer) : Except Error Lexer :=
  if s.allowKey then do
    let s ← s.dropCandidate
    let c := s.cursor
    let required := !s.inFlow && s.indent == (c.column : Int)
    return { s with candidate := some ⟨s.nextIndex, required, c.index, c.line, c.column⟩ }
  else .ok s

/-- Opens a block collection at a column, if it is deeper than the open ones. -/
def openBlock (s : Lexer) (column index : Nat) (start : Token) : Lexer :=
  if !s.inFlow && s.indent < column then
    { s.insert index start with indents := column :: s.indents }
  else s

/-! ## Single tokens -/

/-- A directive or document mark ends all blocks. -/
def endBlocks (s : Lexer) : Except Error Lexer := do
  let s ← (s.unwind (-1)).dropCandidate
  return { s with allowKey := false }

def directiveToken (s : Lexer) : Except Error Lexer := do
  let s ← s.endBlocks
  let (token, cursor) ← directive s.cursor
  return { s.push token with cursor }

def documentMark (s : Lexer) (t : Token) : Except Error Lexer := do
  let s ← s.endBlocks
  return { s.push t with cursor := s.cursor.advanceBy 3 }

def openFlow (s : Lexer) (t : Token) : Except Error Lexer := do
  let s ← s.saveCandidate
  return { s.push t with
    cursor := s.cursor.advance, allowKey := true, candidate := none,
    outer := s.candidate :: s.outer }

/-- A closing bracket; one that nothing opened is a fault. -/
def closeFlow (s : Lexer) (t : Token) : Except Error Lexer := do
  let s ← s.dropCandidate
  match s.outer with
  | [] => throw .malformed
  | candidate :: outer =>
    return { s.push t with cursor := s.cursor.advance, allowKey := false, candidate, outer }

def flowEntry (s : Lexer) : Except Error Lexer := do
  let s ← s.dropCandidate
  return { s.push .flowEntry with cursor := s.cursor.advance, allowKey := true }

def blockEntry (s : Lexer) : Except Error Lexer := do
  if !s.inFlow && !s.allowKey then throw .malformed
  let s ← (s.openBlock s.cursor.column s.nextIndex .blockSequenceStart).dropCandidate
  return { s.push .blockEntry with cursor := s.cursor.advance, allowKey := true }

def explicitKey (s : Lexer) : Except Error Lexer := do
  if !s.inFlow && !s.allowKey then throw .malformed
  let s ← (s.openBlock s.cursor.column s.nextIndex .blockMappingStart).dropCandidate
  return { s.push .key with cursor := s.cursor.advance, allowKey := !s.inFlow }

/-- A `:`.  With a candidate the key token goes in front of it, and a block mapping is opened
there if the candidate is deeper than the open blocks. -/
def mappingValue (s : Lexer) : Except Error Lexer := do
  let s ←
    match s.candidate with
    | some k =>
      let s := { s.insert k.tokenIndex .key with candidate := none, allowKey := false }
      pure (s.openBlock k.column k.tokenIndex .blockMappingStart)
    | none =>
      if !s.inFlow && !s.allowKey then throw .malformed
      let s := s.openBlock s.cursor.column s.nextIndex .blockMappingStart
      pure { s with allowKey := !s.inFlow }
  return { s.push .value with cursor := s.cursor.advance }

/-- A token that may begin a key: an alias, an anchor, a tag or a flow scalar. -/
def nodeToken (s : Lexer) (read : Cursor → Except Error (Token × Cursor)) : Except Error Lexer := do
  let s ← s.saveCandidate
  let (token, cursor) ← read s.cursor
  return { s.push token with cursor, allowKey := false }

def nameToken (s : Lexer) (make : String → Token) : Except Error Lexer :=
  s.nodeToken fun c => do
    let (name, next) ← anchorName? c
    return (make name, next)

def tagToken (s : Lexer) : Except Error Lexer :=
  s.nodeToken fun c => do
    let (handle, suffix, next) ← tag? c
    return (.tag handle suffix, next)

def quotedToken (s : Lexer) (double : Bool) : Except Error Lexer :=
  s.nodeToken fun c => do
    let (text, next) ← quotedScalar double c
    return (.scalar (String.ofList text) false, next)

/-- A literal or folded scalar. -/
def blockScalarToken (s : Lexer) (folded : Bool) : Except Error Lexer := do
  let s ← s.dropCandidate
  let (text, cursor) ← blockScalar folded s.indent s.cursor
  return { s.push (.scalar (String.ofList text) false) with cursor, allowKey := true }

/-- A plain scalar; when it ends at the start of a new line, a key may follow. -/
def plainScalarToken (s : Lexer) : Except Error Lexer := do
  let s ← s.saveCandidate
  let (text, cursor, crossed) := plainScalar s.inFlow (s.indent + 1) s.cursor
  return { s.push (.scalar (String.ofList text) true) with cursor, allowKey := crossed }

/-! ## The whole text -/

/-- Passes over blanks, comments and line breaks.  Outside brackets a key may begin on a new
line. -/
def skipGap : Nat → Lexer → Lexer
  | 0, s => s
  | fuel + 1, s =>
    let c := s.cursor.skipWhile (· == ' ')
    let c := if c.peek == some '#' then c.skipWhile (!isBreak ·) else c
    match c.lineBreak? with
    | some (_, next) =>
      skipGap fuel { s with cursor := next, allowKey := s.allowKey || !s.inFlow }
    | none => { s with cursor := c }

/-- Whether a plain scalar may begin with a character that is followed by `next`. -/
def beginsPlain (flow : Bool) (ch : Char) (next : Option Char) : Bool :=
  !(endsWord (some ch) || "-?:,[]\x7b\x7d#&*!|>'\"%@\x60".toList.contains ch) ||
    (!endsWord next && (ch == '-' || (!flow && (ch == '?' || ch == ':'))))

/-- Reads the token at the cursor, which stands at the character `ch`. -/
def token (s : Lexer) (ch : Char) : Except Error Lexer :=
  let c := s.cursor
  let next := c.peekAt 1
  if ch == '%' && c.column == 0 then s.directiveToken
  else if c.column == 0 && c.atMark '-' then s.documentMark .documentStart
  else if c.column == 0 && c.atMark '.' then s.documentMark .documentEnd
  else if ch == '[' then s.openFlow .flowSequenceStart
  else if ch == '\x7b' then s.openFlow .flowMappingStart
  else if ch == ']' then s.closeFlow .flowSequenceEnd
  else if ch == '\x7d' then s.closeFlow .flowMappingEnd
  else if ch == ',' then s.flowEntry
  else if ch == '-' && endsWord next then s.blockEntry
  else if ch == '?' && (s.inFlow || endsWord next) then s.explicitKey
  else if ch == ':' && (s.inFlow || endsWord next) then s.mappingValue
  else if ch == '*' then s.nameToken .alias
  else if ch == '&' then s.nameToken .anchor
  else if ch == '!' then s.tagToken
  else if ch == '|' && !s.inFlow then s.blockScalarToken false
  else if ch == '>' && !s.inFlow then s.blockScalarToken true
  else if ch == '\'' then s.quotedToken false
  else if ch == '"' then s.quotedToken true
  else if beginsPlain s.inFlow ch next then s.plainScalarToken
  else .error .malformed

/-- Reads one token further, with the block ends before it, or finds the end of the text. -/
def fetch (s : Lexer) : Except Error Lexer := do
  let s ← (skipGap s.cursor.left s).dropStale
  let s := s.unwind s.cursor.column
  match s.cursor.peek with
  | none =>
    let s ← (s.unwind (-1)).dropCandidate
    return { s with finished := true }
  | some ch => s.token ch

/-- Whether a key token may still have to come in front of the next token. -/
def mayBeginKey (s : Lexer) : Bool :=
  (s.candidate :: s.outer).any fun candidate => (candidate.map (·.tokenIndex)) == some s.taken

/-- Reads on until the next token is certain; each step takes a character or finds the end. -/
def settleIn : Nat → Lexer → Except Error Lexer
  | 0, s => .ok s
  | fuel + 1, s =>
    if s.finished then .ok s
    else do
      let s ← if s.queue.isEmpty then pure s else s.dropStale
      if s.queue.isEmpty || s.mayBeginKey then settleIn fuel (← s.fetch)
      else return s

/-- Reads on until the next token is certain, or the end of the text. -/
def settle (s : Lexer) : Except Error Lexer :=
  s.settleIn (s.cursor.left + 2)

def take (s : Lexer) : Lexer :=
  { s with queue := s.queue.drop 1, taken := s.taken + min 1 s.queue.length }

end Lexer

end RpcBindings.Yaml
