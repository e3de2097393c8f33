import RpcBindings.Calendar
import RpcBindings.Decimal.Binary

/-!
# RpcBindings.Value.Basic

Plain data: what a schema document, a configuration file or a payload consists of.  A mapping is
the list of its entries in the order in which their keys were first written; keys may be of any
kind, and two keys are the same when they are equal as numbers, texts, instants or bytes.
-/

namespace RpcBindings

/-- A datum. -/
inductive Value where
  | null
  | bool (b : Bool)
  | int (i : Int)
  | float (x : Float)
  | text (s : String)
  | date (d : Date)
  | instant (t : Instant)
  | bytes (bs : List UInt8)
  | list (items : List Value)
  /-- An entry of an ordered mapping, read as a datum of its own. -/
  | pair (key value : Value)
  | set (items : List Value)
  | map (entries : List (Value × Value))
deriving Inhabited

/-- The entries of a mapping. -/
abbrev Entries := List (Value × Value)

namespace Value

/-- The whole number that a finite float equals, if it equals one. -/
def wholeOfFloat? (x : Float) : Option Int :=
  if x.isNaN || x.isInf then none
  else
    let magnitude := Decimal.Binary.ofBits x.toBits
    let divisor := Nat.pow 2 (-magnitude.q).toNat
    let n := magnitude.m * Nat.pow 2 magnitude.q.toNat
    if n % divisor == 0 then
      some (if x < 0.0 then -((n / divisor : Nat) : Int) else (n / divisor : Nat))
    else none

/-- A truth value counts as 0 or 1, and a float that equals a whole number as that number. -/
def number? : Value → Option Int
  | .bool b => some (if b then 1 else 0)
  | .int i => some i
  | .float x => wholeOfFloat? x
  | _ => none

/-- Whether a datum equals zero as a number. -/
def isNumericZero (v : Value) : Bool :=
  v.number? == some 0

/-- A set of some members.  Where all of them are whole numbers, they stand in ascending order. -/
def ofMembers (members : List Value) : Value :=
  if members.all (·.number?.isSome) then
    .set (members.mergeSort fun a b => a.number?.getD 0 ≤ b.number?.getD 0)
  else .set members

/-- Whether a datum is the undefined number. -/
def isNan : Value → Bool
  | .float x => x.isNaN
  | _ => false

/-- Whether two data are one and the same key of a mapping.  The undefined number is no key but a
new one each time. -/
def sameKey (a b : Value) : Bool :=
  match a.number?, b.number? with
  | some i, some j => i == j
  | some _, none | none, some _ => false
  | none, none =>
    match a, b with
    | .null, .null => true
    | .float x, .float y => x == y
    | .text s, .text t => s == t
    | .date d, .date e => d == e
    | .instant s, .instant t => s.same t
    | .bytes s, .bytes t => s == t
    | _, _ => false

/-- Whether a datum can be the key of a mapping: all but the collections can. -/
def isKey : Value → Bool
  | .list _ | .set _ | .map _ => false
  | _ => true

/-- Whether a datum counts as present: empty collections and texts, zero, false and null do not. -/
def isTruthy : Value → Bool
  | .null => false
  | .bool b => b
  | .int i => i != 0
  | .float x => !(x == 0.0)
  | .text s => !s.isEmpty
  | .bytes bs => !bs.isEmpty
  | .list items | .set items => !items.isEmpty
  | .map entries => !entries.isEmpty
  | .date _ | .instant _ | .pair _ _ => true

def typeName : Value → String
  | .null => "NoneType"
  | .bool _ => "bool"
  | .int _ => "int"
  | .float _ => "float"
  | .text _ => "str"
  | .date _ => "date"
  | .instant _ => "datetime"
  | .bytes _ => "bytes"
  | .list _ => "list"
  | .pair _ _ => "tuple"
  | .set _ => "set"
  | .map _ => "dict"

/-- The name of a datum's type with the module that declares it, as some messages give it. -/
def qualifiedTypeName : Value → String
  | .date _ => "datetime.date"
  | .instant _ => "datetime.datetime"
  | v => v.typeName

/-- The text that a datum holds. -/
def text? : Value → Option String
  | .text s => some s
  | _ => none

/-- The items of a sequence.  Bytes are a sequence of numbers; a text is no sequence, and a set or
a mapping has no positions. -/
def items? : Value → Option (List Value)
  | .list items => some items
  | .pair key value => some [key, value]
  | .bytes bs => some (bs.map fun b => .int b.toNat)
  | _ => none

/-- The entries of a mapping. -/
def entries? : Value → Option Entries
  | .map entries => some entries
  | _ => none

end Value

namespace Entries

/-- Whether an entry's key is this text. -/
def hasName (name : String) (entry : Value × Value) : Bool :=
  match entry.1 with
  | .text s => s == name
  | _ => false

def find? (entries : Entries) (name : String) : Option Value :=
  (List.find? (hasName name) entries).map (·.2)

/-- The value under a text key; an absent key has the value null. -/
def get (entries : Entries) (name : String) : Value :=
  (find? entries name).getD .null

/-- Writes a value under a key, where `same` tells which keys are one: in place where the key
exists, at the end where it does not. -/
def putBy {α β : Type} (same : α → α → Bool) (key : α) (value : β) : List (α × β) → List (α × β)
  | [] => [(key, value)]
  | (k, v) :: rest =>
    if same k key then (k, value) :: rest else (k, v) :: putBy same key value rest

/-- Writes a value under a key: in place where the key exists, at the end where it does not. -/
def put (key value : Value) (entries : Entries) : Entries :=
  putBy Value.sameKey key value entries

def putText (entries : Entries) (name : String) (value : Value) : Entries :=
  put (.text name) value entries

/-- A key is the same as a text when it is that text. -/
theorem sameKey_text (key : Value) (name : String) (value : Value) :
    key.sameKey (.text name) = hasName name (key, value) := by
  cases key <;> simp [Value.sameKey, Value.number?, hasName]
  · rename_i x
    cases Value.wholeOfFloat? x <;> rfl

/-- A key that is one text is no other. -/
theorem hasName_other {name other : String} {key value : Value} (hne : other ≠ name)
    (h : hasName name (key, value) = true) : hasName other (key, value) = false := by
  cases key <;> simp_all [hasName]
  exact fun heq => hne heq.symm

/-- Under the text that was written there is the value that was written, and under every other what
was there before. -/
theorem find?_putText (entries : Entries) (name other : String) (value : Value) :
    find? (putText entries name value) other =
      if other = name then some value else find? entries other := by
  unfold putText put find?
  induction entries with
  | nil =>
    by_cases h : name = other
    · simp [putBy, hasName, h]
    · simp [putBy, hasName, h, Ne.symm h]
  | cons entry rest ih =>
    obtain ⟨key, old⟩ := entry
    rw [putBy, sameKey_text key name old]
    cases hk : hasName name (key, old) with
    | true =>
      by_cases h : other = name
      · subst h
        simp [show hasName other (key, value) = true from hk]
      · have hother := hasName_other h hk
        simp [hother, show hasName other (key, value) = false from hother, h]
    | false =>
      by_cases h : other = name
      · subst h
        simpa [List.find?_cons, hk] using ih
      · simp only [Bool.false_eq_true, ↓reduceIte, List.find?_cons, h] at ih ⊢
        cases hasName other (key, old) <;> simp [ih]

/-- Putting a value changes what is looked up under its name, and under no other. -/
theorem get_putText (entries : Entries) (name other : String) (value : Value) :
    get (putText entries name value) other = if other = name then value else get entries other := by
  unfold get
  rw [find?_putText]
  split <;> rfl

/-- Gives a text key a value.  An absent key has the value null already, so null is not written
where the key is absent. -/
def assign (entries : Entries) (name : String) (value : Value) : Entries :=
  match find? entries name, value with
  | none, .null => entries
  | _, value => putText entries name value

/-- Assigning a value changes what is looked up under its name, and under no other. -/
theorem get_assign (entries : Entries) (name other : String) (value : Value) :
    get (assign entries name value) other = if other = name then value else get entries other := by
  unfold assign
  split
  · next habsent =>
    by_cases h : other = name
    · simp [h, get, habsent]
    · simp [h]
  · exact get_putText _ _ _ _

/-- Writing under a key what is there already changes nothing. -/
theorem putText_of_find? {entries : Entries} {name : String} {value : Value}
    (h : find? entries name = some value) : putText entries name value = entries := by
  unfold putText put
  induction entries with
  | nil => simp [find?] at h
  | cons entry rest ih =>
    obtain ⟨key, old⟩ := entry
    rw [putBy, sameKey_text key name old]
    cases hk : hasName name (key, old) with
    | true =>
      simp only [find?, List.find?_cons, hk, Option.map_some, Option.some.injEq] at h
      rw [if_pos rfl, h]
    | false =>
      have hrest : find? rest name = some value := by
        simpa only [find?, List.find?_cons, hk] using h
      rw [if_neg (by simp), ih hrest]

/-- Giving a key the value that it has changes nothing. -/
theorem assign_get (entries : Entries) (name : String) :
    assign entries name (get entries name) = entries := by
  unfold assign get
  cases h : find? entries name with
  | none => rfl
  | some value =>
    simp only [Option.getD_some]
    exact putText_of_find? h

/-- The mapping that results from writing entries one after the other: of equal keys the first
keeps its place and the last its value. -/
def ofList (entries : List (Value × Value)) : Entries :=
  entries.foldl (fun acc (key, value) => put key value acc) []

end Entries

end RpcBindings
