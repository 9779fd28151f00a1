/-
# ApiCatalog.Text.Quoted -- texts between quotation marks

Messages show a text between single quotation marks, or between double ones
when it holds a single mark and no double one.  Inside, the mark in use and the
backslash take a backslash before them; TAB, LF and CR have letters; any other
character that is not printable is its code point in two, four or eight
lower-case hexadecimal digits.
-/
import ApiCatalog.Text.Printable

namespace ApiCatalog.Text

set_option autoImplicit false

/-- The lowest `width` hexadecimal digits of a number, most significant first. -/
def hexDigits : Nat → Nat → List Char
  | 0, _ => []
  | width + 1, n => hexDigits width (n / 16) ++ [Nat.digitChar (n % 16)]

@[simp] theorem length_hexDigits (width n : Nat) : (hexDigits width n).length = width := by
  induction width generalizing n with
  | zero => rfl
  | succ width ih => simp [hexDigits, ih]

/-- A code point in the shortest of the three hexadecimal forms that holds it. -/
def codePointEscape (n : Nat) : List Char :=
  if n < 0x100 then ['\\', 'x'] ++ hexDigits 2 n
  else if n < 0x10000 then ['\\', 'u'] ++ hexDigits 4 n
  else ['\\', 'U'] ++ hexDigits 8 n

/-- How one character is written between two `mark`s. -/
def escapeChar (mark c : Char) : List Char :=
  if c = mark || c = '\\' then ['\\', c]
  else if c = '\t' then ['\\', 't']
  else if c = '\n' then ['\\', 'n']
  else if c = '\r' then ['\\', 'r']
  else if isPrintable c then [c]
  else codePointEscape c.toNat

/-- The single quotation mark. -/
def singleMark : Char := '\x27'

/-- The double quotation mark. -/
def doubleMark : Char := '\x22'

/-- The mark that saves escapes: double exactly when only single marks occur inside. -/
def markFor (cs : List Char) : Char :=
  if cs.contains singleMark && !cs.contains doubleMark then doubleMark else singleMark

/-- A text between quotation marks, with escapes. -/
def quote (s : String) : String :=
  let cs := s.toList
  let mark := markFor cs
  String.ofList (mark :: cs.flatMap (escapeChar mark) ++ [mark])

end ApiCatalog.Text
