import RpcBindings.Decimal.Rounding

/-!
# RpcBindings.Decimal.Reading

Reading decimal numbers: a run of digits as a natural number, and a decimal with optional point
and exponent as the nearest floating-point value.
-/

namespace RpcBindings.Decimal

def digitValue? (c : Char) : Option Nat :=
  if '0' ≤ c && c ≤ '9' then some (c.toNat - '0'.toNat)
  else if 'a' ≤ c && c ≤ 'f' then some (c.toNat - 'a'.toNat + 10)
  else if 'A' ≤ c && c ≤ 'F' then some (c.toNat - 'A'.toNat + 10)
  else none

/-- The number that a run of digits writes in a base. -/
def ofDigits? (base : Nat) (cs : List Char) : Option Nat :=
  if cs.isEmpty then none
  else
    cs.foldl
      (fun acc c =>
        match acc, digitValue? c with
        | some n, some d => if d < base then some (n * base + d) else none
        | _, _ => none)
      (some 0)

/-- The most digits that a whole number may have where it is read or written in decimal. -/
def mostDigits : Nat := 4300

/-- The number that a run of decimal digits writes; other characters count as nothing. -/
def naturalOf (cs : List Char) : Nat :=
  (ofDigits? 10 cs).getD 0

/-- The value nearest to `digits * 10 ^ exponent`.  Exponents far outside the range of finite
values are decided without computing the power. -/
def nearest (digits : Nat) (exponent : Int) : Float :=
  let magnitude : Int := (Nat.log2 digits : Int) * 30103 / 100000 + exponent
  if digits == 0 || magnitude < -400 then 0.0
  else if 400 < magnitude then 1.0 / 0.0
  else nearestQuotient (digits * Nat.pow 10 exponent.toNat) (Nat.pow 10 (-exponent).toNat)

/-- A decimal in parts: digits before and after the point, and the exponent. -/
structure Parts where
  whole : List Char
  fraction : List Char
  exponent : Int

/-- Splits `12.5e-3` into its parts; the sign is not part of the text.  At least one digit is
needed beside the point, and at least one after the exponent mark. -/
def Parts.ofChars? (cs : List Char) : Option Parts :=
  let whole := cs.takeWhile Char.isDigit
  let afterWhole := cs.dropWhile Char.isDigit
  let (fraction, afterFraction) := match afterWhole with
    | '.' :: rest => (rest.takeWhile Char.isDigit, rest.dropWhile Char.isDigit)
    | rest => ([], rest)
  if whole.isEmpty && fraction.isEmpty then none
  else
    match afterFraction with
    | [] => some ⟨whole, fraction, 0⟩
    | mark :: rest =>
      if mark != 'e' && mark != 'E' then none
      else
        let (negative, digits) := match rest with
          | '-' :: digits => (true, digits)
          | '+' :: digits => (false, digits)
          | digits => (false, digits)
        match ofDigits? 10 digits with
        | some n => some ⟨whole, fraction, if negative then -(n : Int) else n⟩
        | none => none

/-- The value nearest to a decimal given in parts. -/
def Parts.toFloat (p : Parts) : Float :=
  nearest (naturalOf (p.whole ++ p.fraction)) (p.exponent - p.fraction.length)

end RpcBindings.Decimal
