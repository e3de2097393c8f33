import RpcBindings.Decimal.Shortest

/-!
# RpcBindings.Decimal.Layout

The text of a floating-point value: the shortest digits that read back, written positionally while
the exponent of the leading digit is at least -4 and below 16 and in scientific form beyond.
-/

namespace RpcBindings.Decimal

/-- How a value is written: the texts that stand for the values that are not finite. -/
structure Layout where
  infinity : String
  nan : String

/-- The layout of numbers in messages. -/
def Layout.shown : Layout := ⟨"inf", "nan"⟩

/-- The layout of numbers in documents. -/
def Layout.document : Layout := ⟨"Infinity", "NaN"⟩

/-- A positive decimal: positional while `-4 ≤ e < 16` for the exponent `e` of its leading digit,
with at least one digit after the point; scientific with at least two exponent digits beyond. -/
def Scaled.render (d : Scaled) : String :=
  let digits := Nat.toDigits 10 d.digits
  let count := digits.length
  let leading : Int := d.exponent + count - 1
  if -4 ≤ leading && leading < 16 then
    if 0 ≤ d.exponent then
      String.ofList (digits ++ List.replicate d.exponent.toNat '0' ++ ['.', '0'])
    else if 0 ≤ leading then
      let whole := leading.toNat + 1
      String.ofList (digits.take whole ++ '.' :: digits.drop whole)
    else
      String.ofList ('0' :: '.' :: List.replicate ((-leading).toNat - 1) '0' ++ digits)
  else
    let mantissa := match digits with
      | [] => []
      | [c] => [c]
      | c :: rest => c :: '.' :: rest
    let exponent := Nat.toDigits 10 leading.natAbs
    let padding := List.replicate (2 - exponent.length) '0'
    let sign := if leading < 0 then '-' else '+'
    String.ofList (mantissa ++ 'e' :: sign :: padding ++ exponent)

/-- The text of a value in this layout; zero keeps its sign. -/
def Layout.render (layout : Layout) (x : Float) : String :=
  if x.isNaN then layout.nan
  else
    let sign := if x.toBits >>> 63 == 1 then "-" else ""
    if x.isInf then sign ++ layout.infinity
    else
      let magnitude := Binary.ofBits x.toBits
      if magnitude.m == 0 then sign ++ "0.0"
      else sign ++ magnitude.shortest.render

end RpcBindings.Decimal
