/-
# ApiCatalog.Decimal.Numeral -- reading numbers as people write them

A numeral is read from a text in steps:

* padding at both ends is dropped: the blanks, except the four ASCII separators
  U+001C to U+001F;
* decimal digits of every script count by their value (`Glyph`);
* a low line is dropped between two digits and refused anywhere else
  (`joinDigits`);
* what is left is a sign or none, followed by `inf`, `infinity` or `nan` in any
  letter case, or by digits with at most one point among or around them and an
  exponent or none.

`Numeral.toFloat` is the float nearest to what was read; beyond the range of
finite floats that is an infinity or a zero.
-/
import ApiCatalog.Decimal.Digit
import ApiCatalog.Text.Blank

namespace ApiCatalog.Decimal

set_option autoImplicit false

/-- What a numeral says: `finite` is the decimal `digits · 10 ^ exponent` with a sign. -/
inductive Numeral where
  | nan
  | infinite (negative : Bool)
  | finite (negative : Bool) (digits : Nat) (exponent : Int)
deriving DecidableEq, Repr

/-- A character of a numeral: a digit by its value, or any other character. -/
inductive Glyph where
  | digit (value : Nat)
  | other (c : Char)
deriving DecidableEq, Repr

/-- A character seen as part of a numeral. -/
def Glyph.ofChar (c : Char) : Glyph :=
  match digit? c with
  | some value => .digit value
  | none => .other c

/-- Padding around a numeral. -/
def isPadding (c : Char) : Bool := Text.isBlank c && !(0x1C ≤ c.toNat && c.toNat ≤ 0x1F)

/-- Drop the low lines that stand between two digits; refuse any other. -/
def joinDigits : List Glyph → Option (List Glyph)
  | [] => some []
  | .digit d :: .other '_' :: .digit e :: rest =>
    (joinDigits (.digit e :: rest)).map (.digit d :: ·)
  | .other '_' :: _ => none
  | g :: rest => (joinDigits rest).map (g :: ·)

/-- The leading digits, and what follows them. -/
def spanDigits : List Glyph → List Nat × List Glyph
  | .digit d :: rest => ((d :: (spanDigits rest).1), (spanDigits rest).2)
  | gs => ([], gs)

/-- A sign or none: whether it is a minus, and what follows it. -/
def spanSign : List Glyph → Bool × List Glyph
  | .other '-' :: rest => (true, rest)
  | .other '+' :: rest => (false, rest)
  | gs => (false, gs)

/-- An exponent or none, up to the end of the numeral. -/
def readExponent? : List Glyph → Option Int
  | [] => some 0
  | .other mark :: rest =>
    if mark = 'e' || mark = 'E' then
      let (negative, rest) := spanSign rest
      match spanDigits rest with
      | ([], _) => none
      | (digits, []) =>
        some (if negative then -(ofDigits digits : Int) else (ofDigits digits : Int))
      | _ => none
    else none
  | .digit _ :: _ => none

/-- Digits with a point or none, and an exponent or none. -/
def readDecimal? (gs : List Glyph) : Option (Nat × Int) :=
  let (whole, afterWhole) := spanDigits gs
  let (fraction, afterFraction) :=
    match afterWhole with
    | .other '.' :: rest => spanDigits rest
    | rest => ([], rest)
  if whole.isEmpty && fraction.isEmpty then none
  else (readExponent? afterFraction).map fun e =>
    (ofDigits (whole ++ fraction), e - (fraction.length : Int))

/-- Whether the glyphs spell a word in any case of its ASCII letters. -/
def spells (word : String) (gs : List Glyph) : Bool :=
  gs.map (fun
    | .other c => .other c.toLower
    | g => g) = word.toList.map Glyph.other

namespace Numeral

/-- Read the glyphs of a numeral. -/
def ofGlyphs? (gs : List Glyph) : Option Numeral :=
  let (negative, rest) := spanSign gs
  if spells "inf" rest || spells "infinity" rest then some (.infinite negative)
  else if spells "nan" rest then some .nan
  else (readDecimal? rest).map fun (digits, exponent) => .finite negative digits exponent

/-- Read a numeral. -/
def read? (s : String) : Option Numeral :=
  (joinDigits ((Text.trimOf isPadding s.toList).map Glyph.ofChar)).bind ofGlyphs?

/-- A float with a sign put before it. -/
def signed (negative : Bool) (x : Float) : Float := if negative then -x else x

/-- The number of decimal digits of a number. -/
def width (n : Nat) : Nat := (Nat.toDigits 10 n).length

/-- The float nearest to `digits · 10 ^ exponent`.  At 10 ^ 310 and above that is infinity and
below 10 ^ -330 it is zero, so no power of ten beyond these is ever computed. -/
def nearest (digits : Nat) (exponent : Int) : Float :=
  let top := (width digits : Int) + exponent
  if digits = 0 || top < -330 then 0.0
  else if top > 310 then 1.0 / 0.0
  else Float.ofScientific digits (exponent < 0) exponent.natAbs

/-- The float nearest to what a numeral says. -/
def toFloat : Numeral → Float
  | .nan => 0.0 / 0.0
  | .infinite negative => signed negative (1.0 / 0.0)
  | .finite negative digits exponent => signed negative (nearest digits exponent)

end Numeral

end ApiCatalog.Decimal
