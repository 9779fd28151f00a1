/-
# ApiCatalog.Decimal.Layout -- how a float is written

A `Layout` holds the decisions that the digits leave open.  `Layout.plain` is
the layout of this library's answers: positional when the leading digit stands
for 10 ^ -4 or more and less than 10 ^ 16, always with a digit after the point;
otherwise with an exponent that has a sign and at least two digits.
-/
import ApiCatalog.Decimal.Shortest

namespace ApiCatalog.Decimal

set_option autoImplicit false

/-- The decisions of a written form. -/
structure Layout where
  /-- The least exponent of a leading digit that is written positionally. -/
  leastPositional : Int
  /-- The least exponent above that which is not. -/
  endPositional : Int
  /-- The fewest digits of a written exponent. -/
  exponentWidth : Nat
  infinity : String
  notANumber : String

namespace Layout

/-- The layout of answers. -/
def plain : Layout := ⟨-4, 16, 2, "inf", "nan"⟩

/-- A row of zeros. -/
def zeroRow (n : Nat) : List Char := List.replicate n '0'

/-- Digits around a point that stands after the first `before` of them. -/
def positional (digits : List Char) (before : Int) : List Char :=
  if before ≤ 0 then ['0', '.'] ++ zeroRow (-before).toNat ++ digits
  else if before < (digits.length : Int) then
    digits.take before.toNat ++ '.' :: digits.drop before.toNat
  else digits ++ zeroRow (before.toNat - digits.length) ++ ['.', '0']

/-- Digits with the point after the first, and an exponent. -/
def scientific (layout : Layout) (digits : List Char) (exponent : Int) : List Char :=
  let shown := Nat.toDigits 10 exponent.natAbs
  digits.take 1 ++ (if digits.length = 1 then [] else '.' :: digits.drop 1) ++
    'e' :: (if exponent < 0 then '-' else '+') ::
      (zeroRow (layout.exponentWidth - shown.length) ++ shown)

/-- The written form of a positive decimal. -/
def magnitude (layout : Layout) (x : Scaled) : List Char :=
  let digits := Nat.toDigits 10 x.digits
  let kept := (digits.reverse.dropWhile (· = '0')).reverse
  let before := (digits.length : Int) + x.exponent
  if layout.leastPositional ≤ before - 1 && before - 1 < layout.endPositional then
    positional kept before
  else layout.scientific kept (before - 1)

/-- The written form of a float. -/
def render (layout : Layout) (x : Float) : String :=
  if x.isNaN then layout.notANumber
  else
    let bits := x.toBits
    let sign := if bits.toNat / Nat.pow 2 63 = 1 then "-" else ""
    if x.isInf then sign ++ layout.infinity
    else
      let binary := Binary.ofBits bits
      if binary.mantissa = 0 then sign ++ "0.0"
      else sign ++ String.ofList (layout.magnitude binary.shortest)

end Layout

/-- A float as answers show it. -/
def text (x : Float) : String := Layout.plain.render x

end ApiCatalog.Decimal
