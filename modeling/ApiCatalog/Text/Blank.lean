/-
# ApiCatalog.Text.Blank -- blank characters and trimming

`isBlank` is the Unicode white space class together with the four ASCII
separators U+001C to U+001F.  Zero-width characters (U+200B, U+2060, U+FEFF) and
the Mongolian vowel separator U+180E are not blank.

`trim` removes blanks from both ends of a text.  A text is its own trimming
exactly when neither end of it is blank (`trim_eq_self_iff`).  What a trimming
leaves is bounded by the class on both sides (`trimOf_eq_iff`).
-/
import ApiCatalog.Text.Ranges

namespace ApiCatalog.Text

set_option autoImplicit false

/-- The blank code points. -/
def blanks : Ranges :=
  [(0x0009, 0x000D), (0x001C, 0x0020), (0x0085, 0x0085), (0x00A0, 0x00A0), (0x1680, 0x1680),
    (0x2000, 0x200A), (0x2028, 0x2029), (0x202F, 0x202F), (0x205F, 0x205F), (0x3000, 0x3000)]

/-- White space, the information separators included. -/
def isBlank (c : Char) : Bool := blanks.has c

/-- A text without the leading and trailing characters of a class. -/
def trimOf (p : Char → Bool) (cs : List Char) : List Char :=
  ((cs.dropWhile p).reverse.dropWhile p).reverse

/-- A text without its leading and trailing blanks. -/
def trim (cs : List Char) : List Char := trimOf isBlank cs

/-! ## What trimming leaves alone -/

theorem dropWhile_eq_self_iff (p : Char → Bool) (cs : List Char) :
    cs.dropWhile p = cs ↔ ∀ c, cs.head? = some c → p c = false := by
  cases cs with
  | nil => simp
  | cons c rest =>
    by_cases h : p c = true
    · have shorter := (List.dropWhile_suffix p (l := rest)).length_le
      constructor
      · intro same
        rw [List.dropWhile_cons_of_pos h] at same
        have := congrArg List.length same
        simp at this
        omega
      · intro clear
        simp [clear c rfl] at h
    · simp [List.dropWhile_cons_of_neg h, h]

theorem length_trimOf_le (p : Char → Bool) (cs : List Char) :
    (trimOf p cs).length ≤ (cs.dropWhile p).length := by
  have := (List.dropWhile_suffix p (l := (cs.dropWhile p).reverse)).length_le
  simpa [trimOf] using this

/-- A text is its own trimming exactly when neither of its ends is in the class. -/
theorem trimOf_eq_self_iff (p : Char → Bool) (cs : List Char) :
    trimOf p cs = cs ↔
      (∀ c, cs.head? = some c → p c = false) ∧ (∀ c, cs.getLast? = some c → p c = false) := by
  constructor
  · intro same
    have front : cs.dropWhile p = cs := by
      apply (List.dropWhile_suffix p).eq_of_length_le
      have := length_trimOf_le p cs
      rw [same] at this
      exact this
    refine ⟨(dropWhile_eq_self_iff p cs).1 front, ?_⟩
    have back : cs.reverse.dropWhile p = cs.reverse := by
      have := congrArg List.reverse same
      simpa [trimOf, front] using this
    simpa [List.head?_reverse] using (dropWhile_eq_self_iff p cs.reverse).1 back
  · rintro ⟨first, last⟩
    have front := (dropWhile_eq_self_iff p cs).2 first
    have back : cs.reverse.dropWhile p = cs.reverse :=
      (dropWhile_eq_self_iff p cs.reverse).2 (by simpa [List.head?_reverse] using last)
    simp [trimOf, front, back]

theorem not_of_head?_dropWhile {p : Char → Bool} (cs : List Char) {c : Char}
    (h : (cs.dropWhile p).head? = some c) : p c = false := by
  have first := List.head?_dropWhile_not p cs
  rw [h] at first
  exact first

theorem trimOf_append_left {p : Char → Bool} {front cs : List Char}
    (h : ∀ c ∈ front, p c = true) : trimOf p (front ++ cs) = trimOf p cs := by
  rw [trimOf, List.dropWhile_append_of_pos h, trimOf]

theorem trimOf_append_right {p : Char → Bool} {cs back : List Char}
    (h : ∀ c ∈ back, p c = true) : trimOf p (cs ++ back) = trimOf p cs := by
  rw [trimOf, trimOf, List.dropWhile_append]
  split
  case isTrue empty =>
    have gone : back.dropWhile p = [] := by
      simpa using @List.dropWhile_append_of_pos _ p back [] h
    rw [gone, List.isEmpty_iff.1 empty]
  case isFalse =>
    rw [List.reverse_append, List.dropWhile_append_of_pos (by simpa using h)]

/-- What is trimmed off is of the class, and the ends of what is left are not. -/
theorem trimOf_eq_iff {p : Char → Bool} {cs core : List Char} :
    trimOf p cs = core ↔ ∃ front back, cs = front ++ core ++ back ∧
      (∀ c ∈ front, p c = true) ∧ (∀ c ∈ back, p c = true) ∧
      (∀ c, core.head? = some c → p c = false) ∧ (∀ c, core.getLast? = some c → p c = false) := by
  constructor
  · rintro rfl
    have behind : trimOf p cs ++ ((cs.dropWhile p).reverse.takeWhile p).reverse = cs.dropWhile p := by
      rw [trimOf, ← List.reverse_append, List.takeWhile_append_dropWhile, List.reverse_reverse]
    refine ⟨cs.takeWhile p, ((cs.dropWhile p).reverse.takeWhile p).reverse, ?_, ?_, ?_, ?_, ?_⟩
    · rw [List.append_assoc, behind, List.takeWhile_append_dropWhile]
    · exact List.all_eq_true.1 List.all_takeWhile
    · intro c hc
      exact List.all_eq_true.1 List.all_takeWhile c (List.mem_reverse.1 hc)
    · intro c first
      apply not_of_head?_dropWhile cs
      rw [← behind, List.head?_append, first, Option.some_or]
    · intro c last
      apply not_of_head?_dropWhile (cs.dropWhile p).reverse
      rwa [trimOf, List.getLast?_reverse] at last
  · rintro ⟨front, back, rfl, before, behind, ends⟩
    rw [trimOf_append_right behind, trimOf_append_left before]
    exact (trimOf_eq_self_iff p core).2 ends

/-- A text is its own trimming exactly when neither of its ends is blank. -/
theorem trim_eq_self_iff (cs : List Char) :
    trim cs = cs ↔
      (∀ c, cs.head? = some c → isBlank c = false) ∧
        (∀ c, cs.getLast? = some c → isBlank c = false) :=
  trimOf_eq_self_iff isBlank cs

end ApiCatalog.Text
