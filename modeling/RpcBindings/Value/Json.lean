import RpcBindings.Decimal.Layout
import RpcBindings.Decimal.Reading
import RpcBindings.Text.Quoted
import RpcBindings.Value.Basic

/-!
# RpcBindings.Value.Json

Data as JSON text.  Texts keep their characters and escape only the double quote, the backslash
and the controls below U+0020; items are separated by `, ` and a key from its value by `: `.  Dates,
instants, bytes and sets have no JSON form, and neither have whole numbers of very many digits; a
key must be a text, a number, a truth value or null, which is then written as a text.
-/

namespace RpcBindings

/-- Why a datum has no JSON form. -/
inductive JsonError where
  /-- A datum of this type occurs in it. -/
  | noForm (typeName : String)
  /-- A mapping in it has a key of this type. -/
  | badKey (typeName : String)
  /-- A whole number in it has more digits than are written. -/
  | tooLong

def JsonError.message : JsonError → String
  | .noForm typeName => s!"Object of type {typeName} is not JSON serializable"
  | .badKey typeName => s!"keys must be str, int, float, bool or None, not {typeName}"
  | .tooLong =>
    s!"Exceeds the limit ({Decimal.mostDigits} digits) for integer string conversion; " ++
      "use sys.set_int_max_str_digits() to increase the limit"

namespace Json

/-- One character inside a JSON string. -/
def escapeChar (c : Char) : List Char :=
  if c == '"' then ['\\', '"']
  else if c == '\\' then ['\\', '\\']
  else if c == '\n' then ['\\', 'n']
  else if c == '\r' then ['\\', 'r']
  else if c == '\t' then ['\\', 't']
  else if c == '\x08' then ['\\', 'b']
  else if c == '\x0c' then ['\\', 'f']
  else if c.toNat < 0x20 then '\\' :: 'u' :: Text.hexPadded 4 c.toNat
  else [c]

/-- The characters of a JSON string, quotes included. -/
def stringChars (cs : List Char) : List Char :=
  '"' :: cs.flatMap escapeChar ++ ['"']

def string (s : String) : String :=
  String.ofList (stringChars s.toList)

def integer (i : Int) : Except JsonError String :=
  if i.natAbs < Nat.pow 10 Decimal.mostDigits then .ok (toString i) else .error .tooLong

def key : Value → Except JsonError String
  | .null => .ok (string "null")
  | .bool b => .ok (string (if b then "true" else "false"))
  | .int i => (integer i).map string
  | .float x => .ok (string (Decimal.Layout.document.render x))
  | .text s => .ok (string s)
  | v => .error (.badKey v.qualifiedTypeName)

mutual

def render : Value → Except JsonError String
  | .null => .ok "null"
  | .bool b => .ok (if b then "true" else "false")
  | .int i => integer i
  | .float x => .ok (Decimal.Layout.document.render x)
  | .text s => .ok (string s)
  | .list items => do
    let texts ← renderItems items
    return "[" ++ ", ".intercalate texts ++ "]"
  | .pair first second => do
    let first ← render first
    let second ← render second
    return "[" ++ first ++ ", " ++ second ++ "]"
  | .map entries => do
    let texts ← renderEntries entries
    return "\x7b" ++ ", ".intercalate texts ++ "\x7d"
  | .date d => .error (.noForm (Value.date d).typeName)
  | .instant t => .error (.noForm (Value.instant t).typeName)
  | .bytes bs => .error (.noForm (Value.bytes bs).typeName)
  | .set items => .error (.noForm (Value.set items).typeName)

def renderItems : List Value → Except JsonError (List String)
  | [] => .ok []
  | item :: rest => do
    let text ← render item
    let texts ← renderItems rest
    return text :: texts

def renderEntries : List (Value × Value) → Except JsonError (List String)
  | [] => .ok []
  | (name, value) :: rest => do
    let name ← key name
    let text ← render value
    let texts ← renderEntries rest
    return (name ++ ": " ++ text) :: texts

end

end Json

end RpcBindings
