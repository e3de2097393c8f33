import RpcBindings.Decimal.Reading
import RpcBindings.Yaml.Cursor
import RpcBindings.Yaml.Error

/-!
# RpcBindings.Yaml.Token.Scalar

The scalars of a document: plain, in single or double quotes, literal and folded.  Each reader
starts at the first character of the scalar and gives its text and the position after it; `none`
is a scalar that is not well formed, and an escape can name what is no character.
-/

namespace RpcBindings.Yaml

/-- Line breaks as they are folded: a single line feed becomes a space, further breaks stay, and a
separator character stands for itself. -/
def foldBreaks (first : Char) (more : List Char) : List Char :=
  (if first != '\n' then [first] else if more.isEmpty then [' '] else []) ++ more

/-! ## Plain scalars -/

/-- Whether a plain scalar ends at a colon that is followed by `next`. -/
def colonEnds (flow : Bool) (next : Option Char) : Bool :=
  endsWord next || (flow && match next with
    | some c => [',', '[', ']', '\x7b', '\x7d'].contains c
    | none => true)

/-- The longest run of characters of a plain scalar without blanks. -/
def plainWord (flow : Bool) : List Char → List Char
  | [] => []
  | c :: rest =>
    if endsWord (some c) || (c == ':' && colonEnds flow rest.head?) ||
        (flow && [',', '?', '[', ']', '\x7b', '\x7d'].contains c) then []
    else c :: plainWord flow rest

/-- Breaks and spaces after the first break inside a plain scalar; `true` when a document mark
stopped them. -/
def plainBreaks : Nat → Cursor → List Char × Cursor × Bool
  | 0, c => ([], c, false)
  | fuel + 1, c =>
    if c.peek == some ' ' then plainBreaks fuel c.advance
    else
      match c.lineBreak? with
      | none => ([], c, false)
      | some (b, next) =>
        if next.atDocumentMark then ([], next, true)
        else
          let (more, c, stopped) := plainBreaks fuel next
          (b :: more, c, stopped)

/-- The gap between two words of a plain scalar, the position after it and whether it crosses a
line.  An empty gap ends the scalar. -/
def plainGap (c : Cursor) : List Char × Cursor × Bool :=
  let (spaces, c) := c.takeWhile (· == ' ')
  match c.lineBreak? with
  | none => (spaces, c, false)
  | some (b, next) =>
    if next.atDocumentMark then ([], next, true)
    else
      let (more, next, stopped) := plainBreaks next.left next
      (if stopped then [] else foldBreaks b more, next, true)

/-- The words of a plain scalar from the cursor on, each after its gap.  The last part of the
answer tells whether the position reached is on a new line. -/
def plainWords (flow : Bool) (indent : Int) :
    Nat → Cursor → List Char → Bool → List Char × Cursor × Bool
  | 0, c, _, crossed => ([], c, crossed)
  | fuel + 1, c, gap, crossed =>
    let word := plainWord flow c.rest
    if c.peek == some '#' || word.isEmpty then ([], c, crossed)
    else
      let (nextGap, c, crossed) := plainGap (c.advanceBy word.length)
      if nextGap.isEmpty || c.peek == some '#' || (!flow && c.column < indent) then
        (gap ++ word, c, crossed)
      else
        let (more, c, crossed) := plainWords flow indent fuel c nextGap crossed
        (gap ++ word ++ more, c, crossed)

/-- A plain scalar inside a block of the given indentation. -/
def plainScalar (flow : Bool) (indent : Int) (c : Cursor) : List Char × Cursor × Bool :=
  plainWords flow indent (c.left + 1) c [] false

/-! ## Quoted scalars -/

/-- The breaks inside a quoted scalar after the first; blanks around them are dropped. -/
def quotedBreaks : Nat → Cursor → Option (List Char × Cursor)
  | 0, c => some ([], c)
  | fuel + 1, c =>
    if c.atDocumentMark then none
    else
      let c := c.skipWhile fun ch => ch == ' ' || ch == '\t'
      match c.lineBreak? with
      | none => some ([], c)
      | some (b, next) => do
        let (more, c) ← quotedBreaks fuel next
        return (b :: more, c)

/-- The character that a one-letter escape stands for. -/
def simpleEscape? : Char → Option Char
  | '0' => some '\x00'
  | 'a' => some '\x07'
  | 'b' => some '\x08'
  | 't' | '\t' => some '\t'
  | 'n' => some '\n'
  | 'v' => some '\x0b'
  | 'f' => some '\x0c'
  | 'r' => some '\r'
  | 'e' => some '\x1b'
  | ' ' => some ' '
  | '"' => some '"'
  | '\\' => some '\\'
  | '/' => some '/'
  | 'N' => some '\u0085'
  | '_' => some '\u00a0'
  | 'L' => some '\u2028'
  | 'P' => some '\u2029'
  | _ => none

/-- The number of hexadecimal digits that an escape takes. -/
def escapeWidth? : Char → Option Nat
  | 'x' => some 2
  | 'u' => some 4
  | 'U' => some 8
  | _ => none

/-- The character of a code; surrogates have none. -/
def characterOf (code : Nat) : Except Error Char :=
  if 0xD800 ≤ code && code < 0xE000 then .error .beyond
  else if code < 0x110000 then .ok (Char.ofNat code)
  else .error (.scalar (if code < 0x80000000 then .codePoint else .codeTooGreat))

/-- The characters of an escape sequence, from the one after the backslash on. -/
def escape (c : Cursor) : Except Error (List Char × Cursor) := do
  let ch ← c.peek
  if let some meant := simpleEscape? ch then return ([meant], c.advance)
  if let some width := escapeWidth? ch then
    let digits := c.advance.rest.take width
    if digits.length != width then throw .malformed
    let code ← Decimal.ofDigits? 16 digits
    return ([← characterOf code], c.advanceBy (width + 1))
  let (_, next) ← c.lineBreak?
  quotedBreaks next.left next

/-- The text of a quoted scalar up to its closing quote. -/
def quotedText (double : Bool) : Nat → Cursor → Except Error (List Char × Cursor)
  | 0, _ => .error .malformed
  | fuel + 1, c => do
    let ch ← c.peek
    if double && ch == '"' then return ([], c.advance)
    else if !double && ch == '\'' && c.peekAt 1 != some '\'' then return ([], c.advance)
    else
      let (part, next) ←
        if !double && ch == '\'' then pure (['\''], c.advanceBy 2)
        else if double && ch == '\\' then escape c.advance
        else if endsWord (some ch) then
          let (blanks, after) := c.takeWhile fun ch => ch == ' ' || ch == '\t'
          match after.lineBreak? with
          | none => pure (blanks, after)
          | some (b, next) => do
            let (more, next) ← quotedBreaks next.left next
            pure (foldBreaks b more, next)
        else pure ([ch], c.advance)
      let (more, after) ← quotedText double fuel next
      return (part ++ more, after)

def quotedScalar (double : Bool) (c : Cursor) : Except Error (List Char × Cursor) :=
  quotedText double (c.left + 1) c.advance

/-! ## Block scalars -/

/-- What happens to the breaks at the end of a block scalar. -/
inductive Chomping where
  | strip
  | clip
  | keep
deriving DecidableEq

/-- Reads the `+` or `-` of a block scalar header. -/
def chomping? (c : Cursor) : Option Chomping :=
  match c.peek with
  | some '+' => some .keep
  | some '-' => some .strip
  | _ => none

/-- Reads the digit of a block scalar header. -/
def increment? (c : Cursor) : Option Nat :=
  match c.peek with
  | some ch => if ch.isDigit then Decimal.digitValue? ch else none
  | none => none

/-- The header of a block scalar after its indicator: chomping and indentation increment in either
order, then the rest of the line. -/
def blockHeader (c : Cursor) : Option (Chomping × Option Nat × Cursor) := do
  let (chomping, increment, c) :=
    match chomping? c with
    | some chomping =>
      match increment? c.advance with
      | some n => (chomping, some n, c.advanceBy 2)
      | none => (chomping, none, c.advance)
    | none =>
      match increment? c with
      | some n =>
        match chomping? c.advance with
        | some chomping => (chomping, some n, c.advanceBy 2)
        | none => (.clip, some n, c.advance)
      | none => (.clip, none, c)
  if increment == some 0 then none
  if !endsAtSpace c.peek then none
  let c ← c.restOfLine?
  return (chomping, increment, c)

/-- The breaks before the first line of a block scalar whose indentation is not given, and the
deepest column that their spaces reach. -/
def blockIndentation : Nat → Cursor → Nat → List Char × Nat × Cursor
  | 0, c, deepest => ([], deepest, c)
  | fuel + 1, c, deepest =>
    if c.peek == some ' ' then
      let c := c.advance
      blockIndentation fuel c (max deepest c.column)
    else
      match c.lineBreak? with
      | none => ([], deepest, c)
      | some (b, next) =>
        let (more, deepest, c) := blockIndentation fuel next deepest
        (b :: more, deepest, c)

def skipIndent (indent : Nat) (c : Cursor) : Cursor :=
  let spaces := (c.rest.takeWhile (· == ' ')).length
  c.advanceBy (min spaces (indent - c.column))

/-- The empty lines of a block scalar from the cursor on. -/
def blockBreaks (indent : Nat) : Nat → Cursor → List Char × Cursor
  | 0, c => ([], c)
  | fuel + 1, c =>
    let c := skipIndent indent c
    match c.lineBreak? with
    | none => ([], c)
    | some (b, next) =>
      let (more, c) := blockBreaks indent fuel next
      (b :: more, c)

/-- Whether a line of a block scalar starts with a blank, and so is not folded. -/
def startsBlank (c : Cursor) : Bool :=
  c.peek == some ' ' || c.peek == some '\t'

/-- The lines of a block scalar from the cursor on: its text without the final break, that break
(if there is one), and the empty lines that follow. -/
def blockLines (folded : Bool) (indent : Nat) :
    Nat → Cursor → List Char × List Char × List Char × Cursor
  | 0, c => ([], [], [], c)
  | fuel + 1, c =>
    let (line, after) := c.takeWhile (!isBreak ·)
    let (final, after) := match after.lineBreak? with
      | some (b, next) => ([b], next)
      | none => ([], after)
    let (breaks, next) := blockBreaks indent after.left after
    if next.column == indent && next.peek.isSome then
      let joint :=
        if folded && final == ['\n'] && !startsBlank c && !startsBlank next then
          if breaks.isEmpty then [' '] else []
        else final
      let (more, final, trailing, c) := blockLines folded indent fuel next
      (line ++ joint ++ breaks ++ more, final, trailing, c)
    else (line, final, breaks, next)

/-- A literal or folded scalar inside a block of the given indentation. -/
def blockScalar (folded : Bool) (outer : Int) (c : Cursor) : Option (List Char × Cursor) := do
  let (chomping, increment, c) ← blockHeader c.advance
  let least := max 1 (outer + 1).toNat
  let (indent, breaks, c) :=
    match increment with
    | none =>
      let (breaks, deepest, c) := blockIndentation c.left c 0
      (max least deepest, breaks, c)
    | some n =>
      let indent := least + n - 1
      let (breaks, c) := blockBreaks indent (c.left + 1) c
      (indent, breaks, c)
  let (text, final, trailing, c) :=
    if c.column == indent && c.peek.isSome then
      let (text, final, trailing, c) := blockLines folded indent (c.left + 1) c
      (breaks ++ text, final, trailing, c)
    else ([], [], breaks, c)
  let ending := match chomping with
    | .strip => []
    | .clip => final
    | .keep => final ++ trailing
  return (text ++ ending, c)

end RpcBindings.Yaml
