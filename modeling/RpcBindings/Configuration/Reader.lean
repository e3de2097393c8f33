import RpcBindings.Configuration.Error
import RpcBindings.File.Path
import RpcBindings.Generation.Document
import RpcBindings.Text.Blank
import RpcBindings.Text.Split
import RpcBindings.Value.Order

/-!
# RpcBindings.Configuration.Reader

The configuration that data and options describe.  Options are written over the data before any
setting is read, so that a setting is judged by what is finally said about it; only the keys of the
data are checked as they stand.
-/

namespace RpcBindings

/-- Where the schema is, where the document goes and what is generated. -/
structure Configuration where
  /-- The file that the configuration was read from. -/
  path : Option Path
  schemaPath : Path
  /-- Nothing if the document is printed. -/
  outputPath : Option Path
  settings : Settings

namespace Configuration

/-! ## Names -/

/-- Whether a character can stand in a name. -/
def isNameChar (c : Char) : Bool :=
  c.isAlphanum || c == '_'

/-- Whether a text is an identifier: ASCII letters, digits and underscores, no digit in front. -/
def isIdentifier (s : String) : Bool :=
  match s.toList with
  | [] => false
  | c :: rest => (c.isAlpha || c == '_') && rest.all isNameChar

/-- Whether a text is the name of one constant: an identifier that begins with a capital. -/
def isConstantSegment : List Char → Bool
  | [] => false
  | c :: rest => c.isUpper && rest.all isNameChar

/-- The parts of a text between double colons. -/
def constantSegments : List Char → List (List Char)
  | [] => [[]]
  | ':' :: ':' :: rest => [] :: constantSegments rest
  | c :: rest =>
    match constantSegments rest with
    | [] => [[c]]
    | segment :: segments => (c :: segment) :: segments

/-- Whether a text is the name of a constant, each but the last segment naming the one that holds
the next. -/
def isConstant (s : String) : Bool :=
  (constantSegments s.toList).all isConstantSegment

/-! ## Keys -/

/-- The keys that a configuration can have. -/
def knownKeys : List String :=
  ["schema", "target", "output", "package", "fetch_library", "tags", "validate", "ruby"]

/-- The keys of a mapping that no configuration has. -/
def unknownKeys (values : Entries) : List Value :=
  (values.map (·.1)).filter fun
    | .text key => !knownKeys.contains key
    | _ => true

/-- Why two neighbouring keys have no order, if they have none. -/
def orderFault? (key next : Value) : Option ConfigurationError :=
  match key.orderKind, next.orderKind with
  | .date, .local | .date, .absolute | .local, .date | .absolute, .date => some .datesAndInstants
  | .local, .absolute | .absolute, .local => some .localAndAbsolute
  | kind, other =>
    if kind = other && kind != .none then none
    else some (.keysWithoutOrder next.qualifiedTypeName key.qualifiedTypeName)

/-- Keys in the order in which they are compared: those that have no order with any other come
last. -/
def arranged (keys : List Value) : List Value :=
  keys.filter (·.orderKind != .none) ++ keys.filter (·.orderKind == .none)

/-- What is wrong with unknown keys.  They are listed in order if all are texts. -/
def unknownKeysError (key : Value) (keys : List Value) : ConfigurationError :=
  match (key :: keys).mapM Value.text? with
  | some texts => .unknownKeys (texts.mergeSort fun a b => a ≤ b)
  | none =>
    let all := arranged (key :: keys)
    match (all.zip (all.drop 1)).findSome? fun (key, next) => orderFault? key next with
    | some fault => fault
    | none => .keyNotText (key.least keys).qualifiedTypeName

/-- Refuses keys that no configuration has. -/
def checkKeys (values : Entries) : Except ConfigurationError Unit :=
  match unknownKeys values with
  | [] => .ok ()
  | key :: keys => .error (unknownKeysError key keys)

/-! ## Settings -/

/-- A trimmed text that is not empty. -/
def requiredText (key : String) : Value → Except ConfigurationError String
  | .text s =>
    let trimmed := Text.trim s
    if trimmed.isEmpty then .error (.isEmpty key) else .ok trimmed
  | _ => .error (.notString key)

/-- A trimmed text; a blank one counts as none. -/
def optionalText (key : String) : Value → Except ConfigurationError (Option String)
  | .null => .ok none
  | .text s =>
    let trimmed := Text.trim s
    .ok (if trimmed.isEmpty then none else some trimmed)
  | _ => .error (.notString key)

def optionalBool (key : String) : Value → Except ConfigurationError (Option Bool)
  | .null => .ok none
  | .bool b => .ok (some b)
  | _ => .error (.notBoolean key)

/-- The entries of a section; null stands for the empty one. -/
def section? (key : String) : Value → Except ConfigurationError Entries
  | .null => .ok []
  | .map entries => .ok entries
  | _ => .error (.sectionNotMapping key)

/-- The name of a target that exists. -/
def targetName (v : Value) : Except ConfigurationError String := do
  let name ← requiredText "target" v
  if (Target.ofName? name).isSome then return name else throw (.unknownTarget name)

def identifier (key : String) (v : Value) : Except ConfigurationError String := do
  let name ← requiredText key v
  if isIdentifier name then return name else throw (.notIdentifier key name)

def constant (key : String) (v : Value) : Except ConfigurationError String := do
  let name ← requiredText key v
  if isConstant name then return name else throw (.notConstant key name)

/-- Tags without the blanks around them; blank ones do not count, but there must be others. -/
def trimmedTags (tags : List String) : Except ConfigurationError (Option (List String)) :=
  match (tags.map Text.trim).filter (!·.isEmpty) with
  | [] => .error .noTags
  | tags => .ok (some tags)

/-- The tags of a list, or of a text that has commas between them. -/
def tags (v : Value) : Except ConfigurationError (Option (List String)) :=
  match v with
  | .null => .ok none
  | .text s => trimmedTags (Text.split ',' s)
  | v =>
    match v.items? with
    | none => .error .tagsShape
    | some items =>
      match items.mapM Value.text? with
      | none => .error .tagNotString
      | some texts => trimmedTags texts

/-- A path as seen from the directory `base`, in collapsed form from the root.  Collapsing takes a
look at the files on the way, which a path must be fit for. -/
def resolved [Encoding] (base path : Path) : Except ConfigurationError Path :=
  match (base.join path).fault? with
  | some fault => .error (.unfitPath fault)
  | none => .ok (base.resolve path)

/-- The path that a setting means: one that is not absolute starts at the directory `base`. -/
def locate [Encoding] (base : Path) (s : String) : Except ConfigurationError Path :=
  let path := Path.ofString s
  if path.isAbsolute then .ok path else resolved base path

/-! ## The configuration -/

/-- The settings at the top of a configuration, and those of its section on Ruby. -/
structure Sections where
  top : Entries
  ruby : Entries

/-- Writes an option over the settings.  An option with the value null counts as not given. -/
def Sections.override (s : Sections) (option : Value × Value) : Sections :=
  match option with
  | (_, .null) => s
  | (.text "ruby_module", v) => { s with ruby := Entries.putText s.ruby "module" v }
  | (.text "ruby_class", v) => { s with ruby := Entries.putText s.ruby "class" v }
  | (key, v) => { s with top := Entries.put key v s.top }

/-- The value under a key, or the text that stands for an absent one.  A key with the value null is
not absent. -/
def getD (entries : Entries) (key usual : String) : Value :=
  (Entries.find? entries key).getD (.text usual)

/-- The configuration that some settings describe; `base` is the directory that its relative paths
start at. -/
def ofSections [Encoding] (base : Path) (path : Option Path) (s : Sections) :
    Except ConfigurationError Configuration := do
  let schema ← requiredText "schema" (Entries.get s.top "schema")
  let output ← optionalText "output" (Entries.get s.top "output")
  let target ← targetName (Entries.get s.top "target")
  let package ← identifier "package" (getD s.top "package" "api")
  let fetchLibrary ← requiredText "fetch_library" (getD s.top "fetch_library" "node-fetch")
  let tags ← tags (Entries.get s.top "tags")
  let validate ← optionalBool "validate" (Entries.get s.top "validate")
  let rubyModule ← constant "ruby.module" (getD s.ruby "module" "Api")
  let rubyClass ← constant "ruby.class" (getD s.ruby "class" "Client")
  return {
    path
    schemaPath := ← locate base schema
    outputPath := ← output.mapM (locate base)
    settings := { target, package, fetchLibrary, tags, validate, rubyModule, rubyClass } }

/-- The configuration that data describe once options are written over them. -/
def ofEntries [Encoding] (base : Path) (path : Option Path) (values options : Entries) :
    Except ConfigurationError Configuration := do
  checkKeys values
  let ruby ← section? "ruby" (Entries.get values "ruby")
  ofSections base path (options.foldl Sections.override ⟨values, ruby⟩)

end Configuration

end RpcBindings
