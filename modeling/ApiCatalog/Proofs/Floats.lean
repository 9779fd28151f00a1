/-
# ApiCatalog.Proofs.Floats -- the order of floats, and the floats that are no number

Two facts about floats are all that the bounds of a setting rest on.

`le_of_not_lt`: of two floats that are numbers, infinities included, one that is not
strictly less than the other is at least as great.  Compared the other way round two
floats give the opposite answer (`compare_swap`), and they give one at all unless one of
them is no number (`compare_eq_none_iff`).

`isNaN_toFloat_iff`: of all numerals only the word `nan` says a float that is no number.
Packing never makes one (`eq_notANumber_of_unpack_pack`), rounding gives a zero or a
finite float (`roundWithAccuracy_ne_notANumber`), and so a product or a quotient by a
power of ten stays among the numbers (`mul_finite_ne_notANumber`,
`div_finite_ne_notANumber`), however many digits were read and however large the
exponent.
-/
import ApiCatalog.Decimal.Numeral
import Mathlib.Logic.Basic

namespace ApiCatalog.Floats

set_option autoImplicit false

open Float.Model (UnpackedFloat Format)
open Float.Model.UnpackedFloat

/-! ### The order -/

/-- Finite floats of one sign compare by their exponents, and then by their mantissas. -/
theorem magnitude_swap (m n : Nat) (e f : Int) :
    (compare f e).then (compare n m) = ((compare e f).then (compare m n)).swap := by
  rw [Ordering.swap_then, Int.compare_swap, Nat.compare_swap]

/-- Compared the other way round two floats give the opposite answer, or again none. -/
theorem compare_swap (a b : UnpackedFloat) : b.compare a = (a.compare b).map Ordering.swap := by
  rcases a with ⟨_ | _⟩ | _ | s | ⟨_ | _, m, e, _⟩ <;>
    rcases b with ⟨_ | _⟩ | _ | t | ⟨_ | _, n, f, _⟩ <;>
    first
    | rfl
    | exact congrArg some (magnitude_swap m n e f)
    | exact congrArg (fun order => some order.swap) (magnitude_swap m n e f)

/-- Floats have no order only where one of them is no number. -/
theorem compare_eq_none_iff {a b : UnpackedFloat} :
    a.compare b = none ↔ a = .notANumber ∨ b = .notANumber := by
  constructor
  · intro unordered
    rcases a with ⟨_ | _⟩ | _ | s | ⟨_ | _, m, e, _⟩ <;>
      rcases b with ⟨_ | _⟩ | _ | t | ⟨_ | _, n, f, _⟩ <;>
      first
      | exact .inl rfl
      | exact .inr rfl
      | cases unordered
  · rintro (rfl | rfl)
    · rfl
    · cases a <;> rfl

theorem lt_iff_compare {x y : Float} :
    x < y ↔ x.toModel.unpack.compare y.toModel.unpack = some .lt :=
  decide_eq_true_iff.trans beq_iff_eq

theorem le_iff_compare {x y : Float} :
    x ≤ y ↔ (x.toModel.unpack.compare y.toModel.unpack).any (·.isLE) = true :=
  decide_eq_true_iff

theorem isNaN_iff {x : Float} : x.isNaN = true ↔ x.toModel.unpack = .notANumber := by
  show x.toModel.unpack.isNaN = true ↔ _
  cases x.toModel.unpack with
  | notANumber => exact iff_of_true rfl rfl
  | infinity s => exact iff_of_false Bool.false_ne_true nofun
  | zero s => exact iff_of_false Bool.false_ne_true nofun
  | finite s m e pos => exact iff_of_false Bool.false_ne_true nofun

/-- Of two numbers, one that is not strictly less is at least as great. -/
theorem le_of_not_lt {x y : Float} (hx : ¬ x.isNaN = true) (hy : ¬ y.isNaN = true)
    (h : ¬ x < y) : y ≤ x := by
  rw [isNaN_iff] at hx hy
  obtain ⟨o, ho⟩ : ∃ o, x.toModel.unpack.compare y.toModel.unpack = some o := by
    apply Option.ne_none_iff_exists'.mp
    intro none
    exact (compare_eq_none_iff.mp none).elim hx hy
  rw [le_iff_compare, compare_swap, ho]
  cases o with
  | lt => exact absurd (lt_iff_compare.mpr ho) h
  | eq => rfl
  | gt => rfl

theorem le_refl {x : Float} (hx : ¬ x.isNaN = true) : x ≤ x := by
  apply le_of_not_lt hx hx
  intro less
  have swapped := compare_swap x.toModel.unpack x.toModel.unpack
  simp [lt_iff_compare.mp less] at swapped

/-- Two floats that compare are numbers. -/
theorem not_isNaN_of_compare {x y : Float}
    (h : x.toModel.unpack.compare y.toModel.unpack ≠ none) :
    ¬ x.isNaN = true ∧ ¬ y.isNaN = true := by
  rw [isNaN_iff, isNaN_iff]
  exact not_or.mp (mt compare_eq_none_iff.mpr h)

theorem not_isNaN_of_lt {x y : Float} (h : x < y) : ¬ x.isNaN = true ∧ ¬ y.isNaN = true :=
  not_isNaN_of_compare (by simp [lt_iff_compare.mp h])

theorem not_isNaN_of_le {x y : Float} (h : x ≤ y) : ¬ x.isNaN = true ∧ ¬ y.isNaN = true := by
  apply not_isNaN_of_compare
  intro none
  simp [le_iff_compare, none] at h

/-! ### What is no number -/

theorem finite_ne_notANumber (s : Sign) (m : Nat) (e : Int) (pos : 0 < m) :
    UnpackedFloat.finite s m e pos ≠ .notANumber := nofun

/-- Bits are unpacked to no number if all those of the exponent are set, and some of the mantissa. -/
theorem unpack_eq_notANumber_iff {spec : Format} {b : BitVec spec.numBits} :
    unpack spec b = .notANumber ↔ unpackExponent b = -1#_ ∧ unpackMantissa b ≠ 0#_ := by
  unfold unpack
  dsimp only
  by_cases full : unpackExponent b = -1#_
  · rw [if_pos full]
    by_cases empty : unpackMantissa b = 0#_
    · rw [if_pos empty]
      exact iff_of_false nofun fun h => h.2 empty
    · rw [if_neg empty]
      exact iff_of_true rfl ⟨full, empty⟩
  · rw [if_neg full]
    refine iff_of_false ?_ fun h => full h.1
    by_cases least : unpackExponent b = 0#_
    · rw [if_pos least]
      by_cases empty : unpackMantissa b = 0#_
      · rw [dif_pos empty]
        exact nofun
      · rw [dif_neg empty]
        apply finite_ne_notANumber
    · rw [if_neg least]
      apply finite_ne_notANumber

theorem unpack_packComponents_eq_notANumber {spec : Format} {sign : Sign}
    {exponent : BitVec spec.exponentBits} {mantissa : BitVec spec.mantissaBitsWithoutImplicit} :
    unpack spec (packComponents spec sign exponent mantissa) = .notANumber ↔
      exponent = -1#_ ∧ mantissa ≠ 0#_ := by
  rw [unpack_eq_notANumber_iff, unpackExponent_packComponents, unpackMantissa_packComponents]

/-- What is packed is unpacked to no number only if it was none. -/
theorem eq_notANumber_of_unpack_pack {spec : Format} {x : UnpackedFloat}
    (h : unpack spec (pack spec x) = .notANumber) : x = .notANumber := by
  revert h
  -- Only a NaN has all its exponent bits set and some bit of its mantissa: an infinity has no
  -- such bit, and what is finite has an exponent that is too small.
  fun_cases pack spec x with
  | case1 => exact fun _ => rfl
  | case2 s => simp [packedInfinity, unpack_packComponents_eq_notANumber]
  | case3 s => simp [packedZero, unpack_packComponents_eq_notANumber]
  | case4 s m e hm biased large =>
    exact fun h => absurd rfl (unpack_packComponents_eq_notANumber.mp h).2
  | case5 s m e hm bits biased fits normal =>
    have small : biased < 2 ^ spec.exponentBits - 1 := by omega
    have unlike : BitVec.ofNat spec.exponentBits biased ≠ -1#_ := by
      rw [BitVec.neg_one_eq_allOnes, ne_eq, ← BitVec.toNat_inj, BitVec.toNat_ofNat,
        BitVec.toNat_allOnes, Nat.mod_eq_of_lt (by omega)]
      omega
    exact fun h => absurd (unpack_packComponents_eq_notANumber.mp h).1 unlike
  | case6 s m e hm bits biased fits subnormal =>
    have unlike : (0#_ : BitVec spec.exponentBits) ≠ -1#_ := by
      have := spec.he
      simp [BitVec.zero_eq_neg_one_iff]
      omega
    exact fun h => absurd (unpack_packComponents_eq_notANumber.mp h).1 unlike

/-- Rounding gives a zero or a finite float. -/
theorem roundWithAccuracy_ne_notANumber (spec : Format) (sign : Sign) (m : Nat) (e : Int)
    (accuracy : Accuracy) : roundWithAccuracy spec sign m e accuracy ≠ .notANumber := by
  unfold roundWithAccuracy
  dsimp only
  rw [ne_eq, dite_eq_iff]
  rintro (⟨zero, none⟩ | ⟨nonzero, none⟩)
  · cases none
  · exact finite_ne_notANumber _ _ _ _ none

theorem ofNat_ne_notANumber (spec : Format) (n : Nat) :
    UnpackedFloat.ofNat spec n ≠ .notANumber := by
  unfold UnpackedFloat.ofNat UnpackedFloat.ofInt UnpackedFloat.normalize UnpackedFloat.round
  split
  · apply roundWithAccuracy_ne_notANumber
  · simp
  · apply roundWithAccuracy_ne_notANumber

/-- A product with a finite float is a number if the other factor is one. -/
theorem mul_finite_ne_notANumber {spec : Format} {x : UnpackedFloat} (s : Sign) (m : Nat) (e : Int)
    (pos : 0 < m) (hx : x ≠ .notANumber) :
    UnpackedFloat.mul spec x (.finite s m e pos) ≠ .notANumber := by
  cases x with
  | infinity t => exact nofun
  | notANumber => exact absurd rfl hx
  | zero t => exact nofun
  | finite t n f _ => apply roundWithAccuracy_ne_notANumber

/-- A quotient by a finite float is a number if the dividend is one. -/
theorem div_finite_ne_notANumber {spec : Format} {x : UnpackedFloat} (s : Sign) (m : Nat) (e : Int)
    (pos : 0 < m) (hx : x ≠ .notANumber) :
    UnpackedFloat.div spec x (.finite s m e pos) ≠ .notANumber := by
  cases x with
  | infinity t => exact nofun
  | notANumber => exact absurd rfl hx
  | zero t => exact nofun
  | finite t n f _ => apply roundWithAccuracy_ne_notANumber

theorem unpacked_ofScientific_ne_notANumber (spec : Format) (m : Nat) (e : Int) :
    UnpackedFloat.ofScientific spec m e ≠ .notANumber := by
  unfold UnpackedFloat.ofScientific
  by_cases zero : m = 0
  · rw [dif_pos zero]
    exact nofun
  by_cases vast : e > 2 ^ spec.exponentBits
  · rw [dif_neg zero, if_pos vast]
    exact nofun
  by_cases tiny : e < -((2 ^ spec.exponentBits : Int) + m.log2)
  · rw [dif_neg zero, if_neg vast, if_pos tiny]
    exact nofun
  by_cases whole : 0 ≤ e
  · rw [dif_neg zero, if_neg vast, if_neg tiny, if_pos whole]
    apply mul_finite_ne_notANumber
    apply finite_ne_notANumber
  · rw [dif_neg zero, if_neg vast, if_neg tiny, if_neg whole]
    apply div_finite_ne_notANumber
    apply finite_ne_notANumber

/-! ### Numerals -/

/-- The float that packs what is a number is a number. -/
theorem unpack_ofModel_pack_ne {u : UnpackedFloat} (h : u ≠ .notANumber) :
    (Float.ofModel (.pack u)).toModel.unpack ≠ .notANumber := by
  intro none
  have packed : unpack Format.binary64 (pack Format.binary64 u) = .notANumber := none
  exact h (eq_notANumber_of_unpack_pack packed)

theorem not_isNaN_ofModel_pack {u : UnpackedFloat} (h : u ≠ .notANumber) :
    ¬ (Float.ofModel (.pack u)).isNaN = true := by
  rw [isNaN_iff]
  exact unpack_ofModel_pack_ne h

/-- Every power of ten that the table holds is finite and above zero. -/
theorem power_above_zero : ∀ i : Fin Float.exactlyRepresentablePowersOfTen.size,
    Float.exactlyRepresentablePowersOfTen[i].toModel.unpack.isFinite = true ∧
      Float.exactlyRepresentablePowersOfTen[i].toModel.unpack.compare (.zero .positive) =
        some .gt := by
  decide

theorem finite_of_power (e : Nat) (h : e < Float.exactlyRepresentablePowersOfTen.size) :
    ∃ s m f pos, Float.exactlyRepresentablePowersOfTen[e].toModel.unpack = .finite s m f pos := by
  obtain ⟨finite, above⟩ := power_above_zero ⟨e, h⟩
  dsimp only [Fin.getElem_fin] at finite above
  cases eq : Float.exactlyRepresentablePowersOfTen[e].toModel.unpack with
  | finite s m f pos => exact ⟨s, m, f, pos, rfl⟩
  | infinity s =>
    rw [eq] at finite
    cases finite
  | notANumber =>
    rw [eq] at finite
    cases finite
  | zero s =>
    rw [eq] at above
    cases above

theorem not_isNaN_neg {x : Float} (h : ¬ x.isNaN = true) : ¬ (-x).isNaN = true := by
  apply not_isNaN_ofModel_pack
  rw [isNaN_iff] at h
  show x.toModel.unpack.neg ≠ .notANumber
  cases eq : x.toModel.unpack with
  | notANumber => exact absurd eq h
  | infinity s => exact nofun
  | zero s => exact nofun
  | finite s m e pos => exact nofun

/-- No count of digits and no exponent is too large to be read as a number. -/
theorem not_isNaN_ofScientific (m : Nat) (s : Bool) (e : Nat) :
    ¬ (Float.ofScientific m s e).isNaN = true := by
  unfold Float.ofScientific
  split
  case isTrue fast =>
    obtain ⟨t, n, f, pos, ten⟩ := finite_of_power e
      (by simp [Float.exactlyRepresentablePowersOfTen]; omega)
    have whole : m.toUInt64.toFloat.toModel.unpack ≠ .notANumber :=
      unpack_ofModel_pack_ne (ofNat_ne_notANumber _ _)
    dsimp only
    split
    · apply not_isNaN_ofModel_pack
      rw [ten]
      exact div_finite_ne_notANumber t n f pos whole
    · apply not_isNaN_ofModel_pack
      rw [ten]
      exact mul_finite_ne_notANumber t n f pos whole
  case isFalse =>
    apply not_isNaN_ofModel_pack
    apply unpacked_ofScientific_ne_notANumber

theorem not_isNaN_signed (negative : Bool) {x : Float} (h : ¬ x.isNaN = true) :
    ¬ (Decimal.Numeral.signed negative x).isNaN = true := by
  cases negative with
  | true => exact not_isNaN_neg h
  | false => exact h

theorem not_isNaN_nearest (digits : Nat) (exponent : Int) :
    ¬ (Decimal.Numeral.nearest digits exponent).isNaN = true := by
  unfold Decimal.Numeral.nearest
  dsimp only
  split
  · decide
  · split
    · decide
    · apply not_isNaN_ofScientific

/-- The word `nan` is the only numeral that says no number. -/
theorem isNaN_toFloat_iff (numeral : Decimal.Numeral) :
    numeral.toFloat.isNaN = true ↔ numeral = .nan := by
  cases numeral with
  | nan => simp only [iff_true]; decide
  | infinite negative =>
    simp only [reduceCtorEq, iff_false]
    exact not_isNaN_signed negative (by decide)
  | finite negative digits exponent =>
    simp only [reduceCtorEq, iff_false]
    exact not_isNaN_signed negative (not_isNaN_nearest digits exponent)

end ApiCatalog.Floats
