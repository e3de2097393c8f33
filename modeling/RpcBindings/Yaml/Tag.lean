import RpcBindings.Decimal.Reading
import RpcBindings.Text.Split

/-!
# RpcBindings.Yaml.Tag

The tags of nodes: those that a document may state, and those that a plain scalar has by its form.
A plain scalar is a number, a truth value, a date or null if its text has the form of one, and a
text otherwise.
-/

namespace RpcBindings.Yaml

/-- A tag. -/
inductive Tag where
  | null
  | bool
  | int
  | float
  | text
  | binary
  | timestamp
  | sequence
  | mapping
  | set
  /-- A sequence of one-entry mappings with distinct keys in mind. -/
  | orderedMapping
  /-- A sequence of one-entry mappings. -/
  | pairs
  /-- The key `<<`, whose value is merged into the mapping. -/
  | merge
  /-- The key `=`, which stands for the mapping as a scalar. -/
  | default
  /-- A tag that names no kind of datum. -/
  | unknown
deriving DecidableEq

/-- The namespace of the standard tags. -/
def standardTagPrefix : String := "tag:yaml.org,2002:"

/-- The tag with a given full name. -/
def Tag.ofName (name : String) : Tag :=
  let standard := [
    ("null", Tag.null), ("bool", .bool), ("int", .int), ("float", .float), ("str", .text),
    ("binary", .binary), ("timestamp", .timestamp), ("seq", .sequence), ("map", .mapping),
    ("set", .set), ("omap", .orderedMapping), ("pairs", .pairs), ("merge", .merge),
    ("value", .default)]
  match standard.find? fun (short, _) => standardTagPrefix ++ short == name with
  | some (_, tag) => tag
  | none => .unknown

/-! ## The forms of plain scalars -/

/-- A digit or the underscore that may group digits. -/
def isGrouped (isDigit : Char → Bool) (c : Char) : Bool :=
  isDigit c || c == '_'

def isBinaryDigit (c : Char) : Bool := c == '0' || c == '1'

def isOctalDigit (c : Char) : Bool := '0' ≤ c && c ≤ '7'

def isHexDigit (c : Char) : Bool := (Decimal.digitValue? c).isSome

/-- A digit followed by digits and underscores. -/
def isDigitRun : List Char → Bool
  | [] => false
  | c :: rest => c.isDigit && rest.all (isGrouped Char.isDigit)

/-- Digits and underscores, the first of them no zero. -/
def isCountingNumber (cs : List Char) : Bool :=
  isDigitRun cs && cs.head? != some '0'

/-- One place after the first of a number to base sixty: 0 to 59. -/
def isSixtieth : List Char → Bool
  | [c] => c.isDigit
  | [c, d] => '0' ≤ c && c ≤ '5' && d.isDigit
  | _ => false

/-- A number to base sixty with at least two places. -/
def isSexagesimal (isFirst : List Char → Bool) (cs : List Char) : Bool :=
  match Text.splitChars ':' cs with
  | first :: rest => isFirst first && !rest.isEmpty && rest.all isSixtieth
  | [] => false

/-- A text without its sign. -/
def unsigned : List Char → List Char
  | '-' :: rest | '+' :: rest => rest
  | cs => cs

/-- Whether a text has the form of a whole number: binary, octal, decimal, hexadecimal or to base
sixty. -/
def isWholeNumber (cs : List Char) : Bool :=
  let body := unsigned cs
  match body with
  | ['0'] => true
  | '0' :: 'b' :: digits => !digits.isEmpty && digits.all (isGrouped isBinaryDigit)
  | '0' :: 'x' :: digits => !digits.isEmpty && digits.all (isGrouped isHexDigit)
  | '0' :: digits => digits.all (isGrouped isOctalDigit)
  | _ => isCountingNumber body || isSexagesimal isCountingNumber body

/-- Whether a text is an exponent with a sign, or empty. -/
def isSignedExponent : List Char → Bool
  | [] => true
  | mark :: sign :: digits =>
    (mark == 'e' || mark == 'E') && (sign == '-' || sign == '+') &&
      !digits.isEmpty && digits.all Char.isDigit
  | _ => false

/-- The digits and underscores after a point, and what follows them. -/
def fractionDigits (cs : List Char) : List Char × List Char :=
  (cs.takeWhile (isGrouped Char.isDigit), cs.dropWhile (isGrouped Char.isDigit))

/-- Whether a text has the form of a number with a point, of an infinity or of the undefined
number. -/
def isPointNumber (cs : List Char) : Bool :=
  let body := unsigned cs
  let whole := body.takeWhile (· != '.')
  match body.dropWhile (· != '.') with
  | [] => false
  | _ :: rest =>
    let (digits, exponent) := fractionDigits rest
    if whole.isEmpty then
      (["inf", "Inf", "INF"].contains (String.ofList rest)) ||
        (body == cs && (["nan", "NaN", "NAN"].contains (String.ofList rest) ||
          (isDigitRun digits && isSignedExponent exponent)))
    else
      (isDigitRun whole && isSignedExponent exponent) ||
        (isSexagesimal isDigitRun whole && exponent.isEmpty)

/-- The spellings of the truth values. -/
def truthWords : List (String × Bool) :=
  [("yes", true), ("Yes", true), ("YES", true), ("no", false), ("No", false), ("NO", false),
   ("true", true), ("True", true), ("TRUE", true), ("false", false), ("False", false),
   ("FALSE", false), ("on", true), ("On", true), ("ON", true), ("off", false), ("Off", false),
   ("OFF", false)]

/-- The spellings of null. -/
def nullWords : List String := ["", "~", "null", "Null", "NULL"]

/-! ## Dates and times -/

/-- The fields of a date or of a date with a time, as written. -/
structure TimestampFields where
  year : List Char
  month : List Char
  day : List Char
  /-- Hour, minute, second and the digits of the fraction. -/
  time : Option (List Char × List Char × List Char × List Char)
  /-- Whether the offset is negative, with its hours and minutes; `Z` has neither. -/
  offset : Option (Bool × List Char × List Char)

/-- A run of digits whose length lies between two bounds, and what follows it. -/
def digitField (least most : Nat) (cs : List Char) : Option (List Char × List Char) :=
  let digits := (cs.take most).takeWhile Char.isDigit
  if least ≤ digits.length then some (digits, cs.drop digits.length) else none

/-- What follows a given character. -/
def after (c : Char) : List Char → Option (List Char)
  | d :: rest => if d == c then some rest else none
  | [] => none

/-- The offset at the end of a timestamp. -/
def timestampOffset (cs : List Char) : Option (Option (Bool × List Char × List Char)) :=
  match cs.dropWhile fun c => c == ' ' || c == '\t' with
  | [] => if cs.isEmpty then some none else none
  | ['Z'] => some (some (false, [], []))
  | sign :: rest =>
    if sign == '-' || sign == '+' then do
      let (hours, rest) ← digitField 1 2 rest
      if rest.isEmpty then return some (sign == '-', hours, [])
      let rest ← after ':' rest
      let (minutes, rest) ← digitField 2 2 rest
      if rest.isEmpty then return some (sign == '-', hours, minutes) else none
    else none

/-- The fields of a timestamp.  Month and day of a date without a time need two digits where
`strict`. -/
def TimestampFields.ofChars? (strict : Bool) (cs : List Char) : Option TimestampFields := do
  let (year, rest) ← digitField 4 4 cs
  let rest ← after '-' rest
  let (month, rest) ← digitField 1 2 rest
  let rest ← after '-' rest
  let (day, rest) ← digitField 1 2 rest
  match rest with
  | [] =>
    if strict && (month.length != 2 || day.length != 2) then none
    else return ⟨year, month, day, none, none⟩
  | mark :: afterMark =>
    let rest ←
      if mark == 'T' || mark == 't' then some afterMark
      else if mark == ' ' || mark == '\t' then
        some (afterMark.dropWhile fun c => c == ' ' || c == '\t')
      else none
    let (hour, rest) ← digitField 1 2 rest
    let rest ← after ':' rest
    let (minute, rest) ← digitField 2 2 rest
    let rest ← after ':' rest
    let (second, rest) ← digitField 2 2 rest
    let (fraction, rest) := match rest with
      | '.' :: rest => (rest.takeWhile Char.isDigit, rest.dropWhile Char.isDigit)
      | rest => ([], rest)
    let offset ← timestampOffset rest
    return ⟨year, month, day, some (hour, minute, second, fraction), offset⟩

/-! ## The tag of a plain scalar -/

/-- A text without the line feed at its end, which the forms above ignore. -/
def withoutFinalFeed (cs : List Char) : List Char :=
  if 1 < cs.length && cs.getLast? == some '\n' then cs.dropLast else cs

/-- The tag that a plain scalar has by its form. -/
def Tag.ofPlain (text : List Char) : Tag :=
  let cs := withoutFinalFeed text
  let word := String.ofList cs
  if (truthWords.lookup word).isSome then .bool
  else if isPointNumber cs then .float
  else if isWholeNumber cs then .int
  else if word == "<<" then .merge
  else if nullWords.contains word then .null
  else if (TimestampFields.ofChars? true cs).isSome then .timestamp
  else if word == "=" then .default
  else if word == "!" || word == "&" || word == "*" then .unknown
  else .text

end RpcBindings.Yaml
