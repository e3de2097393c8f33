import RpcBindings.Decimal.Reading
import RpcBindings.Text.Utf8
import RpcBindings.Yaml.Cursor
import RpcBindings.Yaml.Error
import RpcBindings.Yaml.Token

/-!
# RpcBindings.Yaml.Token.Property

Anchors, aliases, tags and directives.  A tag is a suffix under a handle (`!int`, `!!int`,
`!e!int`), a whole tag in angle brackets, or a lone `!`; escapes in it are UTF-8 bytes in
hexadecimal.
-/

namespace RpcBindings.Yaml

/-- A name of one character or more. -/
def name? (c : Cursor) : Option (String × Cursor) :=
  let (run, next) := c.takeWhile isNameChar
  if run.isEmpty then none else some (String.ofList run, next)

/-- The name of an anchor or alias, from its indicator on. -/
def anchorName? (c : Cursor) : Option (String × Cursor) := do
  let (name, next) ← name? c.advance
  let ended := endsWord next.peek || match next.peek with
    | some ch => ['?', ':', ',', ']', '\x7d', '%', '@', '\x60'].contains ch
    | none => true
  if ended then some (name, next) else none

/-- Whether a character may be part of a tag. -/
def isTagChar (c : Char) : Bool :=
  c.isAlphanum || "-;/?:@&=+$,_.!~*'()[]".toList.contains c

/-- The bytes of a run of `%` escapes. -/
def tagEscapes : Nat → Cursor → Option (List UInt8 × Cursor)
  | 0, c => some ([], c)
  | fuel + 1, c =>
    if c.peek != some '%' then some ([], c)
    else do
      let digits := c.advance.rest.take 2
      let code ← if digits.length == 2 then Decimal.ofDigits? 16 digits else none
      let (more, next) ← tagEscapes fuel (c.advanceBy 3)
      return (UInt8.ofNat code :: more, next)

/-- The characters of a tag from the cursor on, possibly none. -/
def tagChars : Nat → Cursor → Option (List Char × Cursor)
  | 0, c => some ([], c)
  | fuel + 1, c =>
    match c.peek with
    | none => some ([], c)
    | some ch =>
      if ch == '%' then do
        let (bytes, next) ← tagEscapes c.left c
        let decoded ← (Text.Utf8.decode bytes).toOption
        let (more, next) ← tagChars fuel next
        return (decoded ++ more, next)
      else if isTagChar ch then do
        let (more, next) ← tagChars fuel c.advance
        return (ch :: more, next)
      else some ([], c)

/-- The characters of a tag, at least one of them written. -/
def tagUri? (c : Cursor) : Option (String × Cursor) := do
  let (run, next) ← tagChars c.left c
  if next.index == c.index then none else some (String.ofList run, next)

/-- A tag handle: `!`, `!!` or a name between exclamation marks.  A lone `!` is a handle only
before a space. -/
def handle? (c : Cursor) : Option (String × Cursor) :=
  if c.peek != some '!' then none
  else if c.peekAt 1 == some ' ' then some ("!", c.advance)
  else
    let (run, next) := c.advance.takeWhile isNameChar
    if next.peek == some '!' then some ("!" ++ String.ofList run ++ "!", next.advance) else none

/-- Whether the word at the cursor, whose first character is passed over, holds a `!`. -/
def hasHandle (cs : List Char) : Bool :=
  (cs.takeWhile fun c => !endsAtSpace (some c)).contains '!'

/-- A tag, from its `!` on. -/
def tag? (c : Cursor) : Option (Option String × String × Cursor) := do
  let (handle, suffix, next) ←
    match c.peekAt 1 with
    | some '<' => do
      let (suffix, next) ← tagUri? (c.advanceBy 2)
      if next.peek == some '>' then some (none, suffix, next.advance) else none
    | ch =>
      if endsWord ch then some (none, "!", c.advance)
      else if hasHandle (c.rest.drop 1) then do
        let (handle, next) ← handle? c
        let (suffix, next) ← tagUri? next
        pure (some handle, suffix, next)
      else do
        let (suffix, next) ← tagUri? c.advance
        pure (some "!", suffix, next)
  if endsAtSpace next.peek then some (handle, suffix, next) else none

/-- A number of a version; it has the same limit as a decimal number. -/
def versionNumber (c : Cursor) : Except Error (Nat × Cursor) := do
  let (run, next) := c.takeWhile Char.isDigit
  if Decimal.mostDigits < run.length then throw (.scalar (.tooLong run.length))
  let n ← Decimal.ofDigits? 10 run
  return (n, next)

def version (c : Cursor) : Except Error (Token × Cursor) := do
  let (major, next) ← versionNumber (c.skipWhile (· == ' '))
  if next.peek != some '.' then throw .malformed
  let (_, next) ← versionNumber next.advance
  if endsAtSpace next.peek then return (.version major, next) else throw .malformed

/-- The handle and the tag it stands for after `%TAG`. -/
def tagDefinition? (c : Cursor) : Option (Token × Cursor) := do
  let (handle, next) ← handle? (c.skipWhile (· == ' '))
  if next.peek != some ' ' then none
  let (uri, next) ← tagUri? (next.skipWhile (· == ' '))
  if endsAtSpace next.peek then some (.tagHandle handle uri, next) else none

def directive (c : Cursor) : Except Error (Token × Cursor) := do
  let (name, next) ← name? c.advance
  if !endsAtSpace next.peek then throw .malformed
  let (token, next) ←
    if name == "YAML" then version next
    else if name == "TAG" then orMalformed (tagDefinition? next)
    else pure (.directive, next.skipWhile (!isBreak ·))
  let next ← next.restOfLine?
  return (token, next)

end RpcBindings.Yaml
