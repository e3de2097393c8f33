import RpcBindings.Decimal.Binary

/-!
# RpcBindings.Decimal.Rounding

The floating-point value nearest to an exact quotient of naturals.  The quotient is scaled by a
power of two so that it has 53 bits, or as many as the smallest gap between values leaves, and is
then rounded to a whole number; a half goes to the even neighbour (`roundQuotient`, which is never
off by more than a half).
-/

namespace RpcBindings.Decimal

/-- The whole number nearest to `n / d`; of two equally near the even one. -/
def roundQuotient (n d : Nat) : Nat :=
  let low := n / d
  if 2 * (n % d) < d then low
  else if d < 2 * (n % d) then low + 1
  else if low % 2 = 0 then low
  else low + 1

/-- A rounded quotient is off by a half at most. -/
theorem roundQuotient_near (n d : Nat) (h : 0 < d) :
    2 * (d * roundQuotient n d) ≤ 2 * n + d ∧ 2 * n ≤ 2 * (d * roundQuotient n d) + d := by
  have hsplit := Nat.div_add_mod n d
  have hrest := Nat.mod_lt n h
  have hnext : d * (n / d + 1) = d * (n / d) + d := by rw [Nat.mul_add, Nat.mul_one]
  unfold roundQuotient
  grind

/-- A quotient that comes out even is not changed by rounding. -/
theorem roundQuotient_mul (n d : Nat) (h : 0 < d) : roundQuotient (d * n) d = n := by
  simp [roundQuotient, Nat.mul_div_cancel_left n h, h]

/-- The exponent of the greatest power of two that is not above `n / d`. -/
def quotientLog2 (n d : Nat) : Int :=
  let e : Int := (Nat.log2 n : Int) - Nat.log2 d
  if n * Nat.pow 2 (-e).toNat < d * Nat.pow 2 e.toNat then e - 1 else e

/-- The bits of the value `m * 2 ^ q`, where `m` has 53 bits, or fewer if `q` is the least exponent
-1074.  One that is too great is infinite. -/
def Binary.bitsOf (m : Nat) (q : Int) : UInt64 :=
  let bits := if m < Nat.pow 2 52 then m else (q + 1075).toNat * Nat.pow 2 52 + (m - Nat.pow 2 52)
  UInt64.ofNat (min bits (0x7FF * Nat.pow 2 52))

/-- The value nearest to `n / d`. -/
def nearestQuotient (n d : Nat) : Float :=
  if n == 0 then 0.0
  else
    let q := max (quotientLog2 n d - 52) (-1074)
    let m := roundQuotient (n * Nat.pow 2 (-q).toNat) (d * Nat.pow 2 q.toNat)
    Float.ofBits (Binary.bitsOf m q)

def nearestInt (i : Int) : Float :=
  let magnitude := nearestQuotient i.natAbs 1
  if i < 0 then -magnitude else magnitude

end RpcBindings.Decimal
