/-
# ApiCatalog.Report.Datum -- the value of a field

A value is nothing, a truth value, a number, a text, a list or a table.  As text
it is written the way a reader of the log expects it: nothing is `None`, the
truth values are `True` and `False`, a text inside another value is quoted, and
a text by itself stands bare unless it holds a space (`Datum.renderBare`).
-/
import ApiCatalog.Decimal.Layout
import ApiCatalog.Text.Quoted

namespace ApiCatalog.Report

set_option autoImplicit false

/-- The value of a field. -/
inductive Datum where
  | nothing
  | truth (b : Bool)
  | whole (i : Int)
  | real (x : Float)
  | text (s : String)
  | list (items : List Datum)
  | table (items : List (String × Datum))

instance : Inhabited Datum := ⟨.nothing⟩

/-! ## As text -/

mutual

/-- A value as text, a text among its parts in quotation marks. -/
def Datum.render : Datum → String
  | .nothing => "None"
  | .truth true => "True"
  | .truth false => "False"
  | .whole i => toString i
  | .real x => Decimal.text x
  | .text s => Text.quote s
  | .list items => "[" ++ ", ".intercalate (renderItems items) ++ "]"
  | .table items => "\x7b" ++ ", ".intercalate (renderFields items) ++ "\x7d"

def renderItems : List Datum → List String
  | [] => []
  | item :: rest => Datum.render item :: renderItems rest

def renderFields : List (String × Datum) → List String
  | [] => []
  | (key, item) :: rest => (Text.quote key ++ ": " ++ Datum.render item) :: renderFields rest

end

/-- The value of a field as text; a text without a space stands bare. -/
def Datum.renderBare : Datum → String
  | .text s => if s.toList.contains ' ' then Text.quote s else s
  | datum => Datum.render datum

end ApiCatalog.Report
