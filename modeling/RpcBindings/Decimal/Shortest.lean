import RpcBindings.Decimal.Binary

/-!
# RpcBindings.Decimal.Shortest

The shortest decimal that reads back as a given value.  For one, two, … seventeen digits the two
neighbours of the value on that decimal grid are tested; the first grid with a hit wins, of two
hits the nearer, and of two equally near the one with an even last digit.
-/

namespace RpcBindings.Decimal

/-- The least `k` with `x < 10 ^ k`, for a positive value: an estimate from the binary logarithm,
then at most a few exact steps. -/
def Binary.scale (x : Binary) : Int :=
  let log : Int := (Nat.log2 x.m : Int) + x.q
  let guess : Int := log * 30103 / 100000 - 2
  let candidates := (List.range 8).map fun (step : Nat) => guess + step
  match candidates.find? fun k => compareScaled 1 k x.m x.q == .gt with
  | some k => k
  | none => guess + 8

/-- The quotient of `x` by `10 ^ e`, rounded down. -/
def Binary.floorDiv (x : Binary) (e : Int) : Nat :=
  (x.m * Nat.pow 2 x.q.toNat * Nat.pow 10 (-e).toNat) /
    (Nat.pow 10 e.toNat * Nat.pow 2 (-x.q).toNat)

/-- The neighbour of `x` on the grid of multiples of `10 ^ e` that reads back, the nearer one if
both do. -/
def Binary.onGrid? (x : Binary) (e : Int) : Option Scaled :=
  let low : Scaled := ⟨x.floorDiv e, e⟩
  let high : Scaled := ⟨low.digits + 1, e⟩
  match low.digits != 0 && x.readsBack low, x.readsBack high with
  | true, true =>
    match compareScaled (low.digits + high.digits) e (2 * x.m) x.q with
    | .gt => some low
    | .lt => some high
    | .eq => some (if low.digits % 2 == 0 then low else high)
  | true, false => some low
  | false, true => some high
  | false, false => none

/-- Moves the trailing zeros of the digits into the exponent. -/
def Scaled.strip (d : Scaled) : Nat → Scaled
  | 0 => d
  | steps + 1 =>
    if d.digits != 0 && d.digits % 10 == 0 then
      Scaled.strip ⟨d.digits / 10, d.exponent + 1⟩ steps
    else d

/-- The exact decimal expansion of a value, which is finite for every binary value. -/
def Binary.exact (x : Binary) : Scaled :=
  if 0 ≤ x.q then ⟨x.m * Nat.pow 2 x.q.toNat, 0⟩ else ⟨x.m * Nat.pow 5 (-x.q).toNat, x.q⟩

/-- The shortest decimal that reads back as a positive value. -/
def Binary.shortest (x : Binary) : Scaled :=
  let k := x.scale
  match (List.range 17).findSome? fun (n : Nat) => x.onGrid? (k - (n + 1)) with
  | some d => d.strip 20
  | none => x.exact

end RpcBindings.Decimal
