/-
# ApiCatalog.Text.Cut -- a text cut in two at its first separator

`cut? sep s` is the part of `s` before the first `sep` and the part after it.
It fails exactly on the texts without a separator (`cut?_eq_none_iff`), and
otherwise the two parts and the separator make up the text, the first part
holding no separator (`cut?_eq_some_iff`); so the cut is unique.
-/

namespace ApiCatalog.Text

set_option autoImplicit false

/-- The characters before and after the first separator. -/
def cutChars? (sep : Char) : List Char → Option (List Char × List Char)
  | [] => none
  | c :: rest =>
    if c = sep then some ([], rest)
    else (cutChars? sep rest).map fun parts => (c :: parts.1, parts.2)

/-- The texts before and after the first separator. -/
def cut? (sep : Char) (s : String) : Option (String × String) :=
  (cutChars? sep s.toList).map fun parts => (String.ofList parts.1, String.ofList parts.2)

theorem cutChars?_eq_none_iff {sep : Char} {cs : List Char} :
    cutChars? sep cs = none ↔ sep ∉ cs := by
  induction cs with
  | nil => simp [cutChars?]
  | cons c rest ih =>
    by_cases h : c = sep
    · simp [cutChars?, h]
    · simp [cutChars?, h, ih, Ne.symm h]

theorem cutChars?_eq_some_iff {sep : Char} {cs front back : List Char} :
    cutChars? sep cs = some (front, back) ↔ cs = front ++ sep :: back ∧ sep ∉ front := by
  induction cs generalizing front with
  | nil => simp [cutChars?]
  | cons c rest ih =>
    by_cases h : c = sep
    · subst h
      cases front with
      | nil => simp [cutChars?, eq_comm]
      | cons d front => simp [cutChars?]; intro same; simp [same]
    · cases front with
      | nil => simp [cutChars?, h]
      | cons d front =>
        constructor
        · intro cut
          simp only [cutChars?, h, if_false, Option.map_eq_some_iff] at cut
          obtain ⟨⟨before, after⟩, inner, same⟩ := cut
          simp only [Prod.mk.injEq, List.cons.injEq] at same
          obtain ⟨⟨rfl, rfl⟩, rfl⟩ := same
          obtain ⟨rfl, clear⟩ := ih.1 inner
          simp [clear, Ne.symm h]
        · rintro ⟨same, clear⟩
          simp only [List.cons_append, List.cons.injEq] at same
          obtain ⟨rfl, rfl⟩ := same
          have inner := ih.2 ⟨rfl, fun hm => clear (List.mem_cons_of_mem _ hm)⟩
          simp [cutChars?, h, inner]

/-- A text cannot be cut exactly when it holds no separator. -/
theorem cut?_eq_none_iff {sep : Char} {s : String} : cut? sep s = none ↔ sep ∉ s.toList := by
  simp [cut?, cutChars?_eq_none_iff]

/-- A cut is the one way to write a text around its first separator. -/
theorem cut?_eq_some_iff {sep : Char} {s front back : String} :
    cut? sep s = some (front, back) ↔
      s.toList = front.toList ++ sep :: back.toList ∧ sep ∉ front.toList := by
  rw [cut?, Option.map_eq_some_iff]
  constructor
  · rintro ⟨⟨before, after⟩, cut, same⟩
    simp only [Prod.mk.injEq] at same
    obtain ⟨rfl, rfl⟩ := same
    simpa using cutChars?_eq_some_iff.1 cut
  · intro written
    exact ⟨(front.toList, back.toList), cutChars?_eq_some_iff.2 written, by simp⟩

end ApiCatalog.Text
