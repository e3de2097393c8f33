import RpcBindings.Text.Printable

/-!
# RpcBindings.Text.Quoted

Texts and bytes as messages display them: between single quotes, or between double quotes when the
text holds a single quote and no double one.  The backslash, the chosen quote and every character
that is not printable are escaped, so a displayed text stays on one line.
-/

namespace RpcBindings.Text

/-- A number in hexadecimal, lower case, padded with zeros to at least `width` digits. -/
def hexPadded (width n : Nat) : List Char :=
  let digits := Nat.toDigits 16 n
  List.replicate (width - digits.length) '0' ++ digits

/-- The quote that a text is displayed in. -/
def quoteFor (cs : List Char) : Char :=
  if cs.contains '\'' && !cs.contains '"' then '"' else '\''

/-- One character of a text displayed between `quote`s. -/
def escapeShown (quote c : Char) : List Char :=
  if c == '\\' || c == quote then ['\\', c]
  else if c == '\n' then ['\\', 'n']
  else if c == '\r' then ['\\', 'r']
  else if c == '\t' then ['\\', 't']
  else if isPrintable c then [c]
  else if c.toNat < 0x100 then '\\' :: 'x' :: hexPadded 2 c.toNat
  else if c.toNat < 0x10000 then '\\' :: 'u' :: hexPadded 4 c.toNat
  else '\\' :: 'U' :: hexPadded 8 c.toNat

def quoted (s : String) : String :=
  let quote := quoteFor s.toList
  String.ofList (quote :: s.toList.flatMap (escapeShown quote) ++ [quote])

/-- One byte displayed between `quote`s: as its ASCII character where that is printable. -/
def escapeShownByte (quote : Char) (b : UInt8) : List Char :=
  if b < 0x7F then escapeShown quote (Char.ofNat b.toNat)
  else '\\' :: 'x' :: hexPadded 2 b.toNat

/-- A byte sequence between quotes, marked by a leading `b`. -/
def quotedBytes (bytes : List UInt8) : String :=
  let quote := quoteFor (bytes.map fun b => Char.ofNat b.toNat)
  String.ofList ('b' :: quote :: bytes.flatMap (escapeShownByte quote) ++ [quote])

end RpcBindings.Text
