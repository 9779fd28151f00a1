/-
# ApiCatalog.Text.Case -- texts in lower and in upper case

Words such as `debug` or `true` are compared in lower case and level names in
upper case, under the case maps of all characters (`Text.CaseMap`).

A word of ASCII characters without a `k` is the lower case of no text but those
that spell it in any case of the ASCII letters (`lower_eq_iff`): the other two
characters that an ASCII letter may come of are U+0130, which leaves a combining
dot behind, and the Kelvin sign.
-/
import ApiCatalog.Text.CaseMap

namespace ApiCatalog.Text

set_option autoImplicit false

/-- A text in lower case. -/
def lower (s : String) : String := String.ofList (s.toList.flatMap lowerChar)

/-- A text in upper case. -/
def upper (s : String) : String := String.ofList (s.toList.flatMap upperChar)

/-- A text spells a word, but for the case of its ASCII letters. -/
def Spells (s word : String) : Prop := s.toList.map Char.toLower = word.toList

instance (s word : String) : Decidable (Spells s word) := inferInstanceAs (Decidable (_ = _))

/-- All characters are ASCII, and none is the letter that the Kelvin sign turns into. -/
def PlainWord (word : String) : Prop := (∀ c ∈ word.toList, c.toNat < 128) ∧ 'k' ∉ word.toList

instance (word : String) : Decidable (PlainWord word) :=
  @instDecidableAnd _ _ (List.decidableBAll _ _) inferInstance

theorem toNat_lt_of_toLower {c : Char} (h : c.toLower.toNat < 128) : c.toNat < 128 := by
  unfold Char.toLower at h
  split at h
  case isTrue upper => exact Nat.lt_of_le_of_lt (UInt32.le_iff_toNat_le.1 upper.2) (by decide)
  case isFalse => exact h

/-- A text that spells a word of ASCII characters has no others. -/
theorem Spells.ascii {s word : String} (h : Spells s word) (plain : PlainWord word) :
    ∀ c ∈ s.toList, c.toNat < 128 := by
  intro c hc
  apply toNat_lt_of_toLower
  apply plain.1
  rw [← h]
  exact List.mem_map_of_mem hc

/-- A text of ASCII characters has the lower case of ASCII. -/
theorem toList_lower {s : String} (ascii : ∀ c ∈ s.toList, c.toNat < 128) :
    (lower s).toList = s.toList.map Char.toLower := by
  have images : ∀ c ∈ s.toList, lowerChar c = [c.toLower] :=
    fun c hc => lowerChar_of_ascii (ascii c hc)
  rw [lower, String.toList_ofList, List.map_eq_flatMap, List.flatMap_def, List.flatMap_def,
    List.map_congr_left images]

/-- What has such a word for its lower case is a text of ASCII characters. -/
theorem ascii_of_lower {s : String} (plain : PlainWord (lower s)) :
    ∀ c ∈ s.toList, c.toNat < 128 := by
  intro c hc
  have images : ∀ d ∈ lowerChar c, d ∈ (lower s).toList := by
    intro d hd
    rw [lower, String.toList_ofList]
    exact List.mem_flatMap.2 ⟨c, hc, hd⟩
  obtain ⟨d, hd⟩ := List.exists_mem_of_ne_nil _ (lowerChar_ne_nil c)
  rcases of_mem_lowerChar hd (plain.1 d (images d hd)) with ascii | rfl | rfl
  · exact ascii
  · exact absurd (plain.1 '\u0307' (images _ (by decide))) (by decide)
  · exact absurd (images 'k' (by decide)) plain.2

/-- The full lower case of a text is such a word exactly when the text spells it. -/
theorem lower_eq_iff {s word : String} (plain : PlainWord word) :
    lower s = word ↔ Spells s word := by
  constructor
  · rintro rfl
    exact (toList_lower (ascii_of_lower plain)).symm
  · intro spelt
    rw [← String.toList_inj, toList_lower (spelt.ascii plain)]
    exact spelt

/-- The Kelvin sign has a lower case that an ASCII letter has too. -/
example : lower "\u212a" = "k" ∧ ¬ Spells "\u212a" "k" := by decide

end ApiCatalog.Text
