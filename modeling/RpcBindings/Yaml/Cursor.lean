/-!
# RpcBindings.Yaml.Cursor

A position in the text of a document: what is still to be read, and the line and column reached,
on which the block structure of the format depends.  A byte order mark takes no column.
-/

namespace RpcBindings.Yaml

/-- Whether a character may occur in a document at all. -/
def isDocumentChar (c : Char) : Bool :=
  let n := c.toNat
  n == 0x09 || n == 0x0A || n == 0x0D || (0x20 ≤ n && n ≤ 0x7E) || n == 0x85 ||
    (0xA0 ≤ n && n ≤ 0xD7FF) || (0xE000 ≤ n && n ≤ 0xFFFD) || 0x10000 ≤ n

/-- The characters that end a line. -/
def isBreak (c : Char) : Bool :=
  c == '\n' || c == '\r' || c == '\u0085' || c == '\u2028' || c == '\u2029'

/-- Whether a line ends here: at a break or at the end of the text. -/
def endsLine : Option Char → Bool
  | none => true
  | some c => isBreak c

/-- Whether a token that needs no tab-separation ends here: at a space or at the end of a line. -/
def endsAtSpace : Option Char → Bool
  | some ' ' => true
  | c => endsLine c

/-- Whether a word ends here: at a space, at a tab or at the end of a line. -/
def endsWord : Option Char → Bool
  | some ' ' | some '\t' => true
  | c => endsLine c

/-- The characters of anchor names, tag handles and directive names. -/
def isNameChar (c : Char) : Bool :=
  c.isAlphanum || c == '-' || c == '_'

/-- A position in a text. -/
structure Cursor where
  /-- What is still to be read. -/
  rest : List Char
  /-- How many characters that are. -/
  left : Nat
  index : Nat
  line : Nat
  column : Nat
  left_eq : left = rest.length

namespace Cursor

/-- The start of a text; one leading byte order mark is passed over. -/
def start : List Char → Cursor
  | '\uFEFF' :: rest => ⟨rest, rest.length, 1, 0, 0, rfl⟩
  | cs => ⟨cs, cs.length, 0, 0, 0, rfl⟩

def peek (c : Cursor) : Option Char :=
  c.rest.head?

/-- The character after the next `k`. -/
def peekAt (c : Cursor) (k : Nat) : Option Char :=
  c.rest[k]?

/-- Passes over one character.  A carriage return before a line feed does not end the line. -/
def advance (c : Cursor) : Cursor :=
  match h : c.rest with
  | [] => c
  | ch :: rest =>
    have left_eq : c.left - 1 = rest.length := by simp [c.left_eq, h]
    if isBreak ch && !(ch == '\r' && rest.head? == some '\n') then
      ⟨rest, c.left - 1, c.index + 1, c.line + 1, 0, left_eq⟩
    else if ch == '\uFEFF' then ⟨rest, c.left - 1, c.index + 1, c.line, c.column, left_eq⟩
    else ⟨rest, c.left - 1, c.index + 1, c.line, c.column + 1, left_eq⟩

def advanceBy (c : Cursor) : Nat → Cursor
  | 0 => c
  | n + 1 => c.advance.advanceBy n

/-- The longest run of characters with a property, and the position after it. -/
def takeWhile (c : Cursor) (p : Char → Bool) : List Char × Cursor :=
  let run := c.rest.takeWhile p
  (run, c.advanceBy run.length)

/-- The position after the longest run of characters with a property. -/
def skipWhile (c : Cursor) (p : Char → Bool) : Cursor :=
  (c.takeWhile p).2

/-- The line break at the cursor, and the position after it.  All breaks but the two separators
U+2028 and U+2029 are read as a line feed. -/
def lineBreak? (c : Cursor) : Option (Char × Cursor) :=
  match c.rest with
  | '\r' :: '\n' :: _ => some ('\n', c.advanceBy 2)
  | ch :: _ =>
    if ch == '\u2028' || ch == '\u2029' then some (ch, c.advance)
    else if isBreak ch then some ('\n', c.advance)
    else none
  | [] => none

/-- Passes over the line break at the cursor, if there is one. -/
def skipBreak (c : Cursor) : Cursor :=
  match c.lineBreak? with
  | some (_, next) => next
  | none => c

/-- Passes over blanks and a comment up to the end of the line; `none` if anything else stands
there. -/
def restOfLine? (c : Cursor) : Option Cursor :=
  let c := c.skipWhile (· == ' ')
  let c := if c.peek == some '#' then c.skipWhile (!isBreak ·) else c
  if endsLine c.peek then some c.skipBreak else none

/-- Whether the three characters at the cursor are `mark`, as a word of their own. -/
def atMark (c : Cursor) (mark : Char) : Bool :=
  c.rest.take 3 == [mark, mark, mark] && endsWord (c.peekAt 3)

/-- Whether a document starts or ends here. -/
def atDocumentMark (c : Cursor) : Bool :=
  c.atMark '-' || c.atMark '.'

end Cursor

end RpcBindings.Yaml
