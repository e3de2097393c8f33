import RpcBindings.Name.Words

/-!
# RpcBindings.Name.Casing

Writing the words of a name together: as `PascalCase`, `camelCase` or `snake_case`, or with common
abbreviations in capitals (`UserID`).  All casings see the words only, so names that differ in
their separators alone are written alike.
-/

namespace RpcBindings.Name

/-- A word with a capital in front and lower case after it. -/
def capitalized : List Char → List Char
  | [] => []
  | c :: rest => c.toUpper :: rest.map Char.toLower

def lowered (word : List Char) : List Char :=
  word.map Char.toLower

def uppered (word : List Char) : List Char :=
  word.map Char.toUpper

/-- Abbreviations that are written in capitals throughout. -/
def initialisms : List String :=
  ["ACL", "API", "ASCII", "CPU", "CSS", "DNS", "EOF", "GUID", "HTML", "HTTP", "HTTPS", "ID", "IP",
   "JSON", "LHS", "QPS", "RAM", "RHS", "RPC", "SLA", "SMTP", "SQL", "SSH", "TCP", "TLS", "TTL",
   "UDP", "UI", "UID", "URI", "URL", "UTF8", "UUID", "VM", "XML", "XSRF", "XSS"]

/-- A word in capitals if it is an abbreviation, and capitalized otherwise. -/
def exportedWord (word : List Char) : List Char :=
  if initialisms.contains (String.ofList (uppered word)) then uppered word else capitalized word

/-! ## Casings of characters -/

def pascalChars (name : List Char) : List Char :=
  (wordsOfChars name).flatMap capitalized

def camelChars (name : List Char) : List Char :=
  match pascalChars name with
  | [] => []
  | c :: rest => c.toLower :: rest

def snakeChars (name : List Char) : List Char :=
  List.intercalate ['_'] ((wordsOfChars name).map lowered)

def exportedChars (name : List Char) : List Char :=
  (wordsOfChars name).flatMap exportedWord

/-! ## Casings of texts -/

/-- Pascal case, as in `UserId`. -/
def pascal (name : String) : String :=
  String.ofList (pascalChars name.toList)

/-- Camel case, as in `userId`. -/
def camel (name : String) : String :=
  String.ofList (camelChars name.toList)

/-- Snake case, as in `user_id`. -/
def snake (name : String) : String :=
  String.ofList (snakeChars name.toList)

/-- Pascal case with abbreviations in capitals, as in `UserID`. -/
def exported (name : String) : String :=
  String.ofList (exportedChars name.toList)

end RpcBindings.Name
