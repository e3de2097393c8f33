import RpcBindings.Name.Casing

/-!
# RpcBindings.Name.Keyword

Member names in Rust.  A name that is a keyword is written as a raw identifier, `r#type`; the path
keywords have no raw form and take an underscore instead, `self_`.
-/

namespace RpcBindings.Name

/-- The keywords of Rust, those reserved for later use included. -/
def rustKeywords : List String :=
  ["as", "async", "await", "break", "const", "continue", "dyn", "else", "enum", "extern", "false",
   "fn", "for", "if", "impl", "in", "let", "loop", "match", "mod", "move", "mut", "pub", "ref",
   "return", "static", "struct", "trait", "true", "type", "unsafe", "use", "where", "while",
   "abstract", "become", "box", "do", "final", "macro", "override", "priv", "try", "typeof",
   "unsized", "virtual", "yield", "gen"]

/-- The keywords that cannot be raw identifiers. -/
def rustPathKeywords : List String := ["self", "super", "crate"]

/-- A name that is no keyword of Rust. -/
def escapeRustKeyword (name : String) : String :=
  if rustPathKeywords.contains name then name ++ "_"
  else if rustKeywords.contains name then "r#" ++ name
  else name

/-- The name of a member in Rust. -/
def rustMember (name : String) : String :=
  escapeRustKeyword (snake name)

end RpcBindings.Name
