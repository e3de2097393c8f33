import RpcBindings.Value.Basic

/-!
# RpcBindings.Value.Order

The order of data.  Numbers of all types have one order, by their exact values, and truth values
are among them; texts, bytes, dates, instants without an offset and instants with one have orders
of their own, and data of different kinds have none.
-/

namespace RpcBindings

/-- A kind of data that have an order among themselves. -/
inductive OrderKind where
  | number
  | text
  | bytes
  | date
  /-- An instant that states no offset. -/
  | local
  /-- An instant with an offset. -/
  | absolute
  /-- A datum without an order. -/
  | none
deriving DecidableEq

namespace Value

/-- The data that a datum has an order with. -/
def orderKind : Value → OrderKind
  | .bool _ | .int _ | .float _ => .number
  | .text _ => .text
  | .bytes _ => .bytes
  | .date _ => .date
  | .instant t => if t.offset.isSome then .absolute else .local
  | _ => .none

/-- A finite floating-point value as `n * 2 ^ q`. -/
def scaled (x : Float) : Int × Int :=
  let magnitude := Decimal.Binary.ofBits x.toBits
  (if x < 0.0 then -(magnitude.m : Int) else magnitude.m, magnitude.q)

/-- Compares a floating-point value with a whole number; the undefined one has no order. -/
def compareWhole? (x : Float) (i : Int) : Option Ordering :=
  if x.isNaN then Option.none
  else if x.isInf then some (if x < 0.0 then .lt else .gt)
  else
    let (n, q) := scaled x
    some (compare (n * Int.pow 2 q.toNat) (i * Int.pow 2 (-q).toNat))

/-- Whether one number is less than another. -/
def isLess (a b : Value) : Bool :=
  match a, b with
  | .float x, .float y => x < y
  | .float x, b => b.number?.any fun i => compareWhole? x i == some .lt
  | a, .float y => a.number?.any fun i => compareWhole? y i == some .gt
  | a, b =>
    match a.number?, b.number? with
    | some i, some j => i < j
    | _, _ => false

/-- The least of some numbers. -/
def least (number : Value) (numbers : List Value) : Value :=
  numbers.foldl (fun least n => if n.isLess least then n else least) number

end Value

end RpcBindings
