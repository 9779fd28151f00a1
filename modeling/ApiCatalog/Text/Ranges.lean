/-
# ApiCatalog.Text.Ranges -- sets of characters given by code point ranges

A character property is data: a list of inclusive ranges of code points.
`Ranges.has` asks whether a character lies in one of them, and
`Ranges.has_iff` reads the answer as a membership statement.
-/

namespace ApiCatalog.Text

set_option autoImplicit false

/-- Inclusive ranges of code points. -/
abbrev Ranges := List (Nat × Nat)

/-- Whether a character lies in one of the ranges. -/
def Ranges.has (ranges : Ranges) (c : Char) : Bool :=
  ranges.any fun range => range.1 ≤ c.toNat && c.toNat ≤ range.2

theorem Ranges.has_iff (ranges : Ranges) (c : Char) :
    ranges.has c = true ↔ ∃ range ∈ ranges, range.1 ≤ c.toNat ∧ c.toNat ≤ range.2 := by
  simp [Ranges.has, List.any_eq_true]

end ApiCatalog.Text
