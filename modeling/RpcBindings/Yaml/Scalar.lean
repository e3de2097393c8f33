import RpcBindings.Text.Blank
import RpcBindings.Text.Digit
import RpcBindings.Text.Lowercase
import RpcBindings.Value.Basic
import RpcBindings.Yaml.Error
import RpcBindings.Yaml.Tag

/-!
# RpcBindings.Yaml.Scalar

The data that tagged scalars stand for.  A scalar that has its tag by its form is nearly always
readable as a number or a truth value; one that merely states the tag need not be, and a date of
the right form may not exist.  Numbers may be written in the digits of any script.
-/

namespace RpcBindings.Yaml

/-! ## Numbers -/

/-- The sign of a number and what follows it. -/
def signOf : List Char → Int × List Char
  | '-' :: rest => (-1, rest)
  | '+' :: rest => (1, rest)
  | cs => (1, cs)

/-- A character of a number in ASCII: a blank of any kind is a space, and a digit of any script a
digit. -/
def plainChar (c : Char) : Char :=
  if c.toNat < 0x7F then c
  else if Text.isBlank c then ' '
  else
    match Text.decimalValue? c with
    | some n => Char.ofNat ('0'.toNat + n)
    | none => c

/-- The blanks around a number: the space and the controls U+0009 to U+000D. -/
def isNumberBlank (c : Char) : Bool :=
  c == ' ' || (0x09 ≤ c.toNat && c.toNat ≤ 0x0D)

/-- The characters of a number in ASCII, without the blanks around it. -/
def numberChars (cs : List Char) : List Char :=
  let plain := (cs.map plainChar).dropWhile isNumberBlank
  (plain.reverse.dropWhile isNumberBlank).reverse

/-- Digits without the mark of their base, which may stand before them. -/
def withoutBaseMark (base : Nat) : List Char → List Char
  | '0' :: mark :: rest =>
    if (base == 2 && (mark == 'b' || mark == 'B')) || (base == 8 && (mark == 'o' || mark == 'O')) ||
        (base == 16 && (mark == 'x' || mark == 'X')) then rest
    else '0' :: mark :: rest
  | cs => cs

/-- The whole number that a text writes in a base, blanks around it ignored.  Too many digits in
front are a fault of their own, whatever follows them. -/
def integer (base : Nat) (cs : List Char) : Except ScalarError Int :=
  let (sign, body) := signOf (numberChars cs)
  let digits := withoutBaseMark base body
  let count := (digits.takeWhile Char.isDigit).length
  if base == 10 && Decimal.mostDigits < count then .error (.tooLong count)
  else
    match Decimal.ofDigits? base digits with
    | some n => .ok (sign * n)
    | none => .error (.integer base (String.ofList cs))

/-- The places of a number to base sixty, summed up. -/
def sexagesimal (places : List Int) : Int :=
  places.foldl (fun acc place => acc * 60 + place) 0

/-- The whole number of a scalar.  Underscores count for nothing, and a leading zero states the
base eight. -/
def wholeNumber (text : List Char) : Except ScalarError Int := do
  let (sign, body) := signOf (text.filter (· != '_'))
  let magnitude ←
    match body with
    | [] => throw .noNumber
    | ['0'] => pure 0
    | '0' :: 'b' :: digits => integer 2 digits
    | '0' :: 'x' :: digits => integer 16 digits
    | '0' :: _ => integer 8 body
    | _ =>
      if body.contains ':' then
        sexagesimal <$> (Text.splitChars ':' body).mapM (integer 10)
      else integer 10 body
  return sign * magnitude

/-- The floating-point value that a text in small letters writes, blanks around it ignored. -/
def floatOf (cs : List Char) : Except ScalarError Float :=
  let (sign, body) := signOf (numberChars cs)
  let word := String.ofList body
  let magnitude? :=
    if word == "inf" || word == "infinity" then some (1.0 / 0.0)
    else if word == "nan" then some (0.0 / 0.0)
    else (Decimal.Parts.ofChars? body).map (·.toFloat)
  match magnitude? with
  | some x => .ok (if sign < 0 then -x else x)
  | none => .error (.float (String.ofList cs))

/-- What the place of a number to base sixty counts that has `n` places after it; none is counted
beyond the range of floating-point values. -/
def placeUnit (n : Nat) : Except ScalarError Float :=
  let unit := Decimal.nearestInt (Nat.pow 60 n)
  if unit.isInf then .error .placeTooGreat else .ok unit

/-- The places of a number to base sixty, added up from the last one on. -/
def sexagesimalFloat (places : List Float) : Except ScalarError Float :=
  places.reverse.zipIdx.foldlM (fun acc (place, n) => do return acc + place * (← placeUnit n)) 0.0

/-- The characters of a floating-point number: in small letters and without underscores. -/
def floatChars (text : List Char) : List Char :=
  Text.lowercase (text.filter (· != '_'))

/-- Whether a scalar is the word `.nan`. -/
def isNanWord (text : List Char) : Bool :=
  (signOf (floatChars text)).2 == ['.', 'n', 'a', 'n']

/-- The floating-point value of a scalar. -/
def pointNumber (text : List Char) : Except ScalarError Float := do
  let cs := floatChars text
  if cs.isEmpty then throw .noNumber
  let (sign, body) := signOf cs
  let signed (x : Float) : Float := if sign < 0 then -x else x
  if String.ofList body == ".inf" then return signed (1.0 / 0.0)
  else if isNanWord text then return 0.0 / 0.0
  else if body.contains ':' then
    return signed (← sexagesimalFloat (← (Text.splitChars ':' body).mapM floatOf))
  else return signed (← floatOf body)

/-! ## Dates and times -/

/-- The microseconds that the digits after the point of a second stand for; digits beyond the sixth
are cut off. -/
def microseconds (digits : List Char) : Nat :=
  let six := digits.take 6
  Decimal.naturalOf (six ++ List.replicate (6 - six.length) '0')

/-- The microseconds of an offset, which must be less than a day. -/
def offsetSpan (negative : Bool) (hours minutes : List Char) : Except ScalarError Int :=
  let minutes : Int := Decimal.naturalOf hours * 60 + Decimal.naturalOf minutes
  let signed := if negative then -minutes else minutes
  if 1440 ≤ minutes then .error (.calendar (.offset signed)) else .ok (signed * 60000000)

/-- The date or instant of a scalar. -/
def timestamp (fields : TimestampFields) : Except ScalarError Value := do
  let year := Decimal.naturalOf fields.year
  let month := Decimal.naturalOf fields.month
  let day := Decimal.naturalOf fields.day
  match fields.time with
  | none =>
    match Date.ofFields year month day with
    | .ok date => return .date date
    | .error e => throw (.calendar e)
  | some (hour, minute, second, fraction) =>
    let offset ← fields.offset.mapM fun (negative, hours, minutes) =>
      offsetSpan negative hours minutes
    match Instant.ofFields year month day (Decimal.naturalOf hour) (Decimal.naturalOf minute)
        (Decimal.naturalOf second) (microseconds fraction) offset with
    | .ok instant => return .instant instant
    | .error e => throw (.calendar e)

/-! ## Bytes -/

/-- The six bits that a letter of the base-64 alphabet stands for. -/
def base64Value? (c : Char) : Option Nat :=
  if 'A' ≤ c && c ≤ 'Z' then some (c.toNat - 'A'.toNat)
  else if 'a' ≤ c && c ≤ 'z' then some (c.toNat - 'a'.toNat + 26)
  else if '0' ≤ c && c ≤ '9' then some (c.toNat - '0'.toNat + 52)
  else if c == '+' then some 62
  else if c == '/' then some 63
  else none

/-- The bytes that a base-64 text encodes, from inside a group of four letters on: `filled` letters
of it came before, of whose bits `bits` are left over, and `pads` padding marks.  Other characters
are passed over, and what follows a complete padding is ignored. -/
def base64Bytes (filled bits pads : Nat) : List Char → Option (List UInt8)
  | [] => if filled == 0 then some [] else none
  | c :: rest =>
    if c == '=' then
      if 2 ≤ filled && 4 ≤ filled + pads + 1 then some []
      else base64Bytes filled bits (if 2 ≤ filled then pads + 1 else pads) rest
    else
      match base64Value? c with
      | none => base64Bytes filled bits pads rest
      | some v =>
        match filled with
        | 0 => base64Bytes 1 v 0 rest
        | 1 => (base64Bytes 2 (v % 16) 0 rest).map (UInt8.ofNat (bits * 4 + v / 16) :: ·)
        | 2 => (base64Bytes 3 (v % 4) 0 rest).map (UInt8.ofNat (bits * 16 + v / 4) :: ·)
        | _ => (base64Bytes 0 0 0 rest).map (UInt8.ofNat (bits * 64 + v) :: ·)

/-- The bytes of a scalar, which must be ASCII. -/
def binary? (text : List Char) : Option (List UInt8) :=
  if text.all (·.toNat < 0x80) then base64Bytes 0 0 0 text else none

/-! ## All scalars -/

/-- The truth value of a scalar, in any mixture of capitals. -/
def truthValue (text : List Char) : Except ScalarError Bool :=
  let word := String.ofList (Text.lowercase text)
  match truthWords.lookup word with
  | some b => .ok b
  | none => .error (.truthValue word)

/-- The datum that a text stands for under the tag of a scalar. -/
def scalarValue (tag : Tag) (text : String) : Except Error Value :=
  let cs := text.toList
  match tag with
  | .null => .ok .null
  | .text => .ok (.text text)
  | .bool => ((truthValue cs).map .bool).mapError .scalar
  | .int => ((wholeNumber cs).map .int).mapError .scalar
  | .float => ((pointNumber cs).map .float).mapError .scalar
  | .binary => (orMalformed (binary? cs)).map .bytes
  | .timestamp =>
    match TimestampFields.ofChars? false (withoutFinalFeed cs) with
    | some fields => (timestamp fields).mapError .scalar
    | none => .error (.scalar .timestampForm)
  | _ => .error .malformed

end RpcBindings.Yaml
