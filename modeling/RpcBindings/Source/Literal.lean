import RpcBindings.Value.Json

/-!
# RpcBindings.Source.Literal

Text literals of the target languages.  Go, TypeScript and Ruby take JSON strings between double
quotes; Rust has escapes of its own for control characters; between single quotes TypeScript and
Ruby escape only the quote and the backslash.
-/

namespace RpcBindings.Literal

/-- A literal in double quotes that Go, TypeScript and Ruby read alike. -/
def doubleQuoted (s : String) : String :=
  Json.string s

/-- One character inside a Rust literal. -/
def escapeRust (c : Char) : List Char :=
  if c == '"' || c == '\\' then ['\\', c]
  else if c == '\n' then ['\\', 'n']
  else if c == '\r' then ['\\', 'r']
  else if c == '\t' then ['\\', 't']
  else if c.toNat < 0x20 then
    '\\' :: 'u' :: '\x7b' :: Nat.toDigits 16 c.toNat ++ ['\x7d']
  else [c]

/-- The characters of a Rust literal, quotes included. -/
def rustChars (cs : List Char) : List Char :=
  '"' :: cs.flatMap escapeRust ++ ['"']

def rust (s : String) : String :=
  String.ofList (rustChars s.toList)

/-- One character inside a literal in single quotes. -/
def escapeSingle (c : Char) : List Char :=
  if c == '\'' || c == '\\' then ['\\', c] else [c]

/-- The characters of a literal in single quotes, quotes included. -/
def singleQuotedChars (cs : List Char) : List Char :=
  '\'' :: cs.flatMap escapeSingle ++ ['\'']

def singleQuoted (s : String) : String :=
  String.ofList (singleQuotedChars s.toList)

end RpcBindings.Literal
