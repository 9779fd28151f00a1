/-
# ApiCatalog.Decimal.Shortest -- the fewest digits that read back

A finite float is `mantissa · 2 ^ exponent`.  The reals that are rounded to it
form an interval around it, which ends halfway to its neighbours and holds its
ends exactly when the mantissa is even.  `shortest` looks on the grids of
decimals with 1, 2, … 17 digits for a point in that interval and takes the first
grid with a hit.  On a grid only the two neighbours of the float can be hits; of
two hits the nearer is taken, and of two equally near ones the even.
-/

namespace ApiCatalog.Decimal

set_option autoImplicit false

/-- A positive binary number, `mantissa · 2 ^ exponent`. -/
structure Binary where
  mantissa : Nat
  exponent : Int
deriving DecidableEq, Repr

/-- A decimal number, `digits · 10 ^ exponent`. -/
structure Scaled where
  digits : Nat
  exponent : Int
deriving DecidableEq, Repr

namespace Binary

/-- The magnitude of a finite float from its bits. -/
def ofBits (bits : UInt64) : Binary :=
  let fraction : Nat := bits.toNat % Nat.pow 2 52
  let biased : Nat := bits.toNat / Nat.pow 2 52 % Nat.pow 2 11
  if biased = 0 then ⟨fraction, -1074⟩ else ⟨Nat.pow 2 52 + fraction, (biased : Int) - 1075⟩

/-- How far the interval of a number reaches below four times its mantissa: half a step, or a
quarter where the steps below are half as wide. -/
def below (x : Binary) : Nat := if x.mantissa = Nat.pow 2 52 && x.exponent > -1074 then 1 else 2

/-- The number as a fraction of two naturals. -/
def ratio (x : Binary) : Nat × Nat := 
  (x.mantissa * Nat.pow 2 x.exponent.toNat, Nat.pow 2 (-x.exponent).toNat)

/-- The decimal exponent of the leading digit. -/
def leading (x : Binary) : Int :=
  let (num, den) := x.ratio
  if den ≤ num then ((Nat.toDigits 10 (num / den)).length : Int) - 1
  else -((Nat.toDigits 10 ((den - 1) / num)).length : Int)

/-- The decimal with exponent `k` that lies in the interval of the number, if there is one. -/
def onGrid? (x : Binary) (k : Int) : Option Scaled :=
  let step := Nat.pow 2 (x.exponent - 2).toNat * Nat.pow 10 (-k).toNat
  let unit := Nat.pow 2 (2 - x.exponent).toNat * Nat.pow 10 k.toNat
  let value := 4 * x.mantissa * step
  let least := (4 * x.mantissa - x.below) * step
  let most := (4 * x.mantissa + 2) * step
  let closed := x.mantissa % 2 = 0
  let inside (c : Nat) : Bool :=
    if closed then least ≤ c * unit && c * unit ≤ most else least < c * unit && c * unit < most
  let low := value / unit
  let high := low + 1
  let toLow := value - low * unit
  let toHigh := high * unit - value
  match inside low, inside high with
  | true, true =>
    if toLow < toHigh || (toLow = toHigh && low % 2 = 0) then some ⟨low, k⟩ else some ⟨high, k⟩
  | true, false => some ⟨low, k⟩
  | false, true => some ⟨high, k⟩
  | false, false => none

/-- The decimal with the fewest digits that is rounded to the number. -/
def shortest (x : Binary) : Scaled :=
  ((List.range 17).findSome? fun (n : Nat) => x.onGrid? (x.leading - n)).getD ⟨0, 0⟩

end Binary

end ApiCatalog.Decimal
