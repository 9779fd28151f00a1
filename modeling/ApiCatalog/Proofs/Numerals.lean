/-
# ApiCatalog.Proofs.Numerals -- which texts are numerals, and what they say

`Numeral.Written` is the grammar of numerals, said without the steps of reading one: a sign
or none, then a word in any case of its letters, or decimal digits with a point or none and
an exponent or none; a low line stands only between two digits and counts for nothing, and
so does padding around the whole.

A text is read as a numeral exactly when it is written for that numeral
(`read?_eq_some_iff`).  So the reader takes every text of the grammar and no other, and no
text is written for two numerals.
-/
import ApiCatalog.Decimal.Numeral
import Mathlib.Logic.Basic

namespace ApiCatalog.Decimal

set_option autoImplicit false

variable {gs hs rest : List Glyph} {ds : List Nat} {negative : Bool}

/-! ## The grammar -/

/-- Every low line stands between two digits. -/
def LowLinesJoin (gs : List Glyph) : Prop :=
  ∀ front back, gs = front ++ .other '_' :: back →
    (∃ d, front.getLast? = some (.digit d)) ∧ ∃ d, back.head? = some (.digit d)

/-- The glyphs of a row of digits. -/
def glyphs (ds : List Nat) : List Glyph := ds.map .digit

/-- A sign or none, and whether it is a minus. -/
inductive SignMark : List Glyph → Bool → Prop where
  | none : SignMark [] false
  | plus : SignMark [.other '+'] false
  | minus : SignMark [.other '-'] true

/-- A word in any case of its ASCII letters. -/
def Word (word : String) (gs : List Glyph) : Prop :=
  ∃ cs : List Char, gs = cs.map .other ∧ cs.map Char.toLower = word.toList

/-- A point with the digits behind it, or none. -/
inductive Fraction : List Glyph → List Nat → Prop where
  | none : Fraction [] []
  | pointed (fs : List Nat) : Fraction (.other '.' :: glyphs fs) fs

/-- An exponent or none. -/
inductive Exponent : List Glyph → Int → Prop where
  | none : Exponent [] 0
  | marked {mark : Char} {sign : List Glyph} {negative : Bool} {ds : List Nat}
      (mark_eq : mark = 'e' ∨ mark = 'E') (signed : SignMark sign negative) (some_digit : ds ≠ []) :
      Exponent (.other mark :: (sign ++ glyphs ds))
        (if negative then -(ofDigits ds : Int) else (ofDigits ds : Int))

/-- Digits with a fraction or none and an exponent or none, for `digits · 10 ^ exponent`. -/
inductive Amount : List Glyph → Nat → Int → Prop where
  | mk {ws fs : List Nat} {point back : List Glyph} {e : Int} (fraction : Fraction point fs)
      (some_digit : ws ++ fs ≠ []) (exponent : Exponent back e) :
      Amount (glyphs ws ++ (point ++ back)) (ofDigits (ws ++ fs)) (e - fs.length)

/-- What stands behind the sign of a numeral. -/
inductive Magnitude (negative : Bool) (gs : List Glyph) : Numeral → Prop where
  | infinite (word : Word "inf" gs ∨ Word "infinity" gs) :
      Magnitude negative gs (.infinite negative)
  | nan (word : Word "nan" gs) : Magnitude negative gs .nan
  | finite {digits : Nat} {exponent : Int} (amount : Amount gs digits exponent) :
      Magnitude negative gs (.finite negative digits exponent)

/-- A numeral without padding and low lines. -/
inductive Plain : List Glyph → Numeral → Prop where
  | mk {sign body : List Glyph} {negative : Bool} {n : Numeral} (signed : SignMark sign negative)
      (magnitude : Magnitude negative body n) : Plain (sign ++ body) n

/-- A text that is written for a numeral. -/
def Numeral.Written (n : Numeral) (s : String) : Prop :=
  ∃ front core back, s.toList = front ++ core ++ back ∧
    (∀ c ∈ front, isPadding c = true) ∧ (∀ c ∈ back, isPadding c = true) ∧
    (∀ c, core.head? = some c → isPadding c = false) ∧
    (∀ c, core.getLast? = some c → isPadding c = false) ∧
    LowLinesJoin (core.map Glyph.ofChar) ∧
    Plain ((core.map Glyph.ofChar).filter (· ≠ .other '_')) n

/-! ## Low lines -/

theorem lowLinesJoin_nil : LowLinesJoin [] := by
  intro front back whole
  simp at whole

theorem not_lowLinesJoin_cons (gs : List Glyph) : ¬ LowLinesJoin (.other '_' :: gs) := by
  intro join
  obtain ⟨⟨d, last⟩, -⟩ := join [] gs rfl
  simp at last

/-- A low line between two digits may be passed over. -/
theorem lowLinesJoin_between {d e : Nat} :
    LowLinesJoin (.digit d :: .other '_' :: .digit e :: gs) ↔ LowLinesJoin (.digit e :: gs) := by
  constructor
  · intro join front back whole
    cases front with
    | nil => simp at whole
    | cons g front =>
      obtain ⟨last, first⟩ := join (.digit d :: .other '_' :: g :: front) back (by simp [whole])
      exact ⟨by simpa using last, first⟩
  · intro join front back whole
    match front with
    | [] => simp at whole
    | [g] =>
      simp only [List.cons_append, List.nil_append, List.cons.injEq, true_and] at whole
      obtain ⟨rfl, rfl⟩ := whole
      exact ⟨⟨d, rfl⟩, e, rfl⟩
    | g :: low :: front =>
      simp only [List.cons_append, List.cons.injEq] at whole
      obtain ⟨last, first⟩ := join front back whole.2.2
      cases front with
      | nil => simp at last
      | cons h front => exact ⟨by simpa using last, first⟩

/-- Any other glyph may be passed over, unless it is a digit with such a low line behind it. -/
theorem lowLinesJoin_cons {g : Glyph} (plain : g ≠ .other '_')
    (apart : ∀ d e rest, g = .digit d → gs ≠ .other '_' :: .digit e :: rest) :
    LowLinesJoin (g :: gs) ↔ LowLinesJoin gs := by
  constructor
  · intro join front back whole
    obtain ⟨last, first⟩ := join (g :: front) back (by simp [whole])
    cases front with
    | nil =>
      obtain ⟨d, last⟩ := last
      obtain ⟨e, first⟩ := first
      obtain ⟨rest, rfl⟩ := List.head?_eq_some_iff.1 first
      exact absurd whole (apart d e rest (by simpa using last))
    | cons h front => exact ⟨by simpa using last, first⟩
  · intro join front back whole
    cases front with
    | nil => exact absurd (List.cons.inj whole).1 plain
    | cons h front =>
      obtain ⟨last, first⟩ := join front back (List.cons.inj whole).2
      cases front with
      | nil => simp at last
      | cons h' front => exact ⟨by simpa using last, first⟩

/-- Digits are joined where every low line stands between two of them, by leaving the low lines out. -/
theorem joinDigits_eq_some_iff :
    joinDigits gs = some hs ↔ LowLinesJoin gs ∧ hs = gs.filter (· ≠ .other '_') := by
  fun_induction joinDigits gs generalizing hs with
  | case1 => simp [lowLinesJoin_nil, eq_comm]
  | case2 d e rest ih =>
    rw [Option.map_eq_some_iff, lowLinesJoin_between]
    constructor
    · rintro ⟨joined, read, rfl⟩
      obtain ⟨join, rfl⟩ := ih.1 read
      exact ⟨join, by simp⟩
    · rintro ⟨join, rfl⟩
      exact ⟨_, ih.2 ⟨join, rfl⟩, by simp⟩
  | case3 rest => simp [not_lowLinesJoin_cons]
  | case4 g rest apart plain ih =>
    rw [Option.map_eq_some_iff, lowLinesJoin_cons plain apart,
      List.filter_cons_of_pos (by simpa using plain)]
    constructor
    · rintro ⟨joined, read, rfl⟩
      obtain ⟨join, rfl⟩ := ih.1 read
      exact ⟨join, rfl⟩
    · rintro ⟨join, rfl⟩
      exact ⟨_, ih.2 ⟨join, rfl⟩, rfl⟩

/-! ## The pieces of a numeral -/

theorem glyphs_append_spanDigits (gs : List Glyph) :
    glyphs (spanDigits gs).1 ++ (spanDigits gs).2 = gs := by
  fun_induction spanDigits gs with
  | case1 d gs ih => exact congrArg (Glyph.digit d :: ·) ih
  | case2 gs => rfl

/-- All digits of a row are read together where no digit follows them. -/
theorem spanDigits_append (stop : ∀ d, rest.head? ≠ some (.digit d)) :
    spanDigits (glyphs ds ++ rest) = (ds, rest) := by
  induction ds with
  | nil =>
    apply spanDigits.eq_2
    rintro d tail rfl
    exact stop d rfl
  | cons d ds ih =>
    show (d :: (spanDigits (glyphs ds ++ rest)).1, (spanDigits (glyphs ds ++ rest)).2) = _
    rw [ih]

theorem exists_signMark (gs : List Glyph) :
    ∃ sign, SignMark sign (spanSign gs).1 ∧ sign ++ (spanSign gs).2 = gs := by
  unfold spanSign
  split
  · exact ⟨_, .minus, rfl⟩
  · exact ⟨_, .plus, rfl⟩
  · exact ⟨_, .none, rfl⟩

/-- A sign or none is read where no sign follows it. -/
theorem spanSign_append {sign : List Glyph} (signed : SignMark sign negative)
    (plus : rest.head? ≠ some (.other '+')) (minus : rest.head? ≠ some (.other '-')) :
    spanSign (sign ++ rest) = (negative, rest) := by
  cases signed with
  | plus => rfl
  | minus => rfl
  | none =>
    apply spanSign.eq_3
    · rintro tail rfl
      exact minus rfl
    · rintro tail rfl
      exact plus rfl

theorem readExponent?_eq_some_iff {e : Int} : readExponent? gs = some e ↔ Exponent gs e := by
  constructor
  · intro read
    match gs with
    | [] =>
      cases read
      exact .none
    | .digit d :: rest => cases read
    | .other mark :: rest =>
      obtain ⟨sign, signed, whole⟩ := exists_signMark rest
      have digits := glyphs_append_spanDigits (spanSign rest).2
      rw [readExponent?] at read
      split at read
      case isFalse => cases read
      case isTrue marked =>
        dsimp only at read
        split at read
        · cases read
        · next ds some_digit spans =>
          cases read
          rw [spans, List.append_nil] at digits
          rw [← digits] at whole
          have written := Exponent.marked (by simpa using marked) signed some_digit
          rwa [whole] at written
        · cases read
  · rintro (_ | ⟨marked, signed, some_digit⟩)
    · rfl
    · next mark sign negative ds =>
      obtain ⟨d, ds, rfl⟩ := List.exists_cons_of_ne_nil some_digit
      have after : spanSign (sign ++ glyphs (d :: ds)) = (negative, glyphs (d :: ds) ++ []) := by
        rw [List.append_nil]
        exact spanSign_append signed (by simp [glyphs]) (by simp [glyphs])
      rw [readExponent?, if_pos (by simpa using marked), after]
      dsimp only
      rw [spanDigits_append (by simp)]

/-- An exponent or none begins with neither a digit nor a point. -/
theorem Exponent.head?_ne {e : Int} (exponent : Exponent gs e) :
    (∀ d, gs.head? ≠ some (.digit d)) ∧ gs.head? ≠ some (.other '.') := by
  rcases exponent with _ | ⟨rfl | rfl, -, -⟩ <;> simp

/-- A point with the digits behind it, or none, and what follows. -/
def spanFraction : List Glyph → List Nat × List Glyph
  | .other '.' :: rest => spanDigits rest
  | gs => ([], gs)

theorem exists_fraction (gs : List Glyph) :
    ∃ point, Fraction point (spanFraction gs).1 ∧ point ++ (spanFraction gs).2 = gs := by
  unfold spanFraction
  split
  · exact ⟨_, .pointed _, congrArg (Glyph.other '.' :: ·) (glyphs_append_spanDigits _)⟩
  · exact ⟨_, .none, rfl⟩

theorem spanFraction_append {point : List Glyph} {fs : List Nat} (fraction : Fraction point fs)
    (undigital : ∀ d, rest.head? ≠ some (.digit d)) (unpointed : rest.head? ≠ some (.other '.')) :
    spanFraction (point ++ rest) = (fs, rest) := by
  cases fraction with
  | pointed => exact spanDigits_append undigital
  | none =>
    apply spanFraction.eq_2
    rintro tail rfl
    exact unpointed rfl

/-- The digits, the fraction and the exponent are read one after the other. -/
theorem readDecimal?_eq (gs : List Glyph) : readDecimal? gs =
    if (spanDigits gs).1 ++ (spanFraction (spanDigits gs).2).1 = [] then none
    else (readExponent? (spanFraction (spanDigits gs).2).2).map fun e =>
      (ofDigits ((spanDigits gs).1 ++ (spanFraction (spanDigits gs).2).1),
        e - ((spanFraction (spanDigits gs).2).1.length : Int)) := by
  have empty : ∀ ws fs : List Nat, ws ++ fs = [] ↔ (ws.isEmpty && fs.isEmpty) = true := by simp
  simp only [empty]
  rfl

theorem readDecimal?_eq_some_iff {digits : Nat} {exponent : Int} :
    readDecimal? gs = some (digits, exponent) ↔ Amount gs digits exponent := by
  rw [readDecimal?_eq]
  constructor
  · intro read
    obtain ⟨point, fraction, behind⟩ := exists_fraction (spanDigits gs).2
    split at read
    case isTrue => cases read
    case isFalse some_digit =>
      obtain ⟨e, exponent, same⟩ := Option.map_eq_some_iff.1 read
      cases same
      have written := Amount.mk fraction some_digit (readExponent?_eq_some_iff.1 exponent)
      rwa [behind, glyphs_append_spanDigits] at written
  · rintro ⟨fraction, some_digit, exponent⟩
    obtain ⟨undigital, unpointed⟩ := exponent.head?_ne
    next ws fs point back e =>
      have stop : ∀ d, (point ++ back).head? ≠ some (.digit d) := by
        cases fraction with
        | none => exact undigital
        | pointed => simp
      rw [spanDigits_append stop]
      dsimp only
      rw [spanFraction_append fraction undigital unpointed, if_neg some_digit]
      dsimp only
      rw [readExponent?_eq_some_iff.2 exponent, Option.map_some]

/-- An amount begins with a digit or a point. -/
theorem Amount.head? {digits : Nat} {exponent : Int} (amount : Amount gs digits exponent) :
    ∃ g, gs.head? = some g ∧ ((∃ d, g = .digit d) ∨ g = .other '.') := by
  obtain ⟨fraction, some_digit, -⟩ := amount
  next ws fs point back e =>
    cases ws with
    | cons w ws => exact ⟨_, rfl, .inl ⟨w, rfl⟩⟩
    | nil =>
      cases fraction with
      | none => exact absurd rfl some_digit
      | pointed fs => exact ⟨_, rfl, .inr rfl⟩

/-! ## Words -/

theorem spells_iff {word : String} : spells word gs = true ↔ Word word gs := by
  rw [spells, decide_eq_true_iff, Word]
  generalize word.toList = ws
  induction gs generalizing ws with
  | nil => cases ws <;> simp
  | cons g gs ih =>
    cases ws with
    | nil => simp
    | cons w ws =>
      simp only [List.map_cons, List.cons.injEq, ih, @eq_comm _ (g :: gs), List.map_eq_cons_iff]
      cases g with
      | digit d => simp
      | other c =>
        constructor
        · rintro ⟨lower, cs, rfl, rfl⟩
          exact ⟨c :: cs, ⟨c, cs, rfl, rfl, rfl⟩, c, cs, rfl, by simpa using lower, rfl⟩
        · rintro ⟨_, ⟨c', cs, rfl, same, rfl⟩, c'', cs', whole, lower, rfl⟩
          cases same
          cases whole
          exact ⟨by simpa using lower, cs, rfl, rfl⟩

instance (word : String) (gs : List Glyph) : Decidable (Word word gs) :=
  decidable_of_iff _ spells_iff

/-- Glyphs spell one word at most. -/
theorem Word.unique {word word' : String} (first : Word word gs) (second : Word word' gs) :
    word = word' := by
  obtain ⟨cs, rfl, spelt⟩ := first
  obtain ⟨cs', same, spelt'⟩ := second
  have same : cs = cs' := (List.map_inj_right fun _ _ h => Glyph.other.inj h).1 same
  rw [← String.toList_inj, ← spelt, ← spelt', same]

/-- The first letter of a word is the one that its first glyph is a case of. -/
theorem Word.head? {word : String} {g : Glyph} (spelt : Word word gs) (first : gs.head? = some g) :
    ∃ c, g = .other c ∧ word.toList.head? = some c.toLower := by
  obtain ⟨cs, rfl, lower⟩ := spelt
  rw [List.head?_map, Option.map_eq_some_iff] at first
  obtain ⟨c, first, rfl⟩ := first
  exact ⟨c, rfl, by rw [← lower, List.head?_map, first, Option.map_some]⟩

/-- A word does not begin with a glyph that is no case of its first letter. -/
theorem Word.head?_ne {word : String} {c : Char} (spelt : Word word gs)
    (h : word.toList.head? ≠ some c.toLower) : gs.head? ≠ some (.other c) := by
  intro first
  obtain ⟨_, same, letter⟩ := spelt.head? first
  cases same
  exact h letter

/-- An amount spells no word. -/
theorem Amount.not_word {digits : Nat} {exponent : Int} (amount : Amount gs digits exponent)
    {word : String} (h : word.toList.head? ≠ some '.') : ¬ Word word gs := by
  intro spelt
  obtain ⟨g, first, kind⟩ := amount.head?
  obtain ⟨c, rfl, letter⟩ := spelt.head? first
  rcases kind with ⟨d, digit⟩ | point
  · cases digit
  · cases point
    exact h letter

/-! ## Numerals -/

/-- Read what stands behind a sign. -/
def magnitude? (negative : Bool) (gs : List Glyph) : Option Numeral :=
  if spells "inf" gs || spells "infinity" gs then some (.infinite negative)
  else if spells "nan" gs then some .nan
  else (readDecimal? gs).map fun (digits, exponent) => .finite negative digits exponent

theorem magnitude?_eq_some_iff {n : Numeral} :
    magnitude? negative gs = some n ↔ Magnitude negative gs n := by
  simp only [magnitude?, Bool.or_eq_true, spells_iff]
  constructor
  · intro read
    split at read
    case isTrue word =>
      cases read
      exact .infinite word
    case isFalse =>
      split at read
      case isTrue word =>
        cases read
        exact .nan word
      case isFalse =>
        obtain ⟨⟨digits, exponent⟩, decimal, rfl⟩ := Option.map_eq_some_iff.1 read
        exact .finite (readDecimal?_eq_some_iff.1 decimal)
  · rintro (word | word | amount)
    · rw [if_pos word]
    · have finite : ¬ (Word "inf" gs ∨ Word "infinity" gs) := by
        rintro (other | other)
        · exact absurd (word.unique other) (by decide)
        · exact absurd (word.unique other) (by decide)
      rw [if_neg finite, if_pos word]
    · have finite : ¬ (Word "inf" gs ∨ Word "infinity" gs) :=
        not_or.2 ⟨amount.not_word (by decide), amount.not_word (by decide)⟩
      rw [if_neg finite, if_neg (amount.not_word (by decide)), readDecimal?_eq_some_iff.2 amount,
        Option.map_some]

/-- What stands behind a sign does not begin with one. -/
theorem Magnitude.head?_ne {n : Numeral} (magnitude : Magnitude negative gs n) :
    gs.head? ≠ some (.other '+') ∧ gs.head? ≠ some (.other '-') := by
  have letters : ∀ word ∈ ["inf", "infinity", "nan"],
      word.toList.head? ≠ some '+' ∧ word.toList.head? ≠ some '-' := by decide
  have words : ∀ word ∈ ["inf", "infinity", "nan"], Word word gs →
      gs.head? ≠ some (.other '+') ∧ gs.head? ≠ some (.other '-') := by
    intro word known spelt
    obtain ⟨plus, minus⟩ := letters word known
    exact ⟨spelt.head?_ne plus, spelt.head?_ne minus⟩
  rcases magnitude with (word | word) | word | amount
  · exact words _ (by simp) word
  · exact words _ (by simp) word
  · exact words _ (by simp) word
  · obtain ⟨g, first, ⟨d, rfl⟩ | rfl⟩ := amount.head? <;> simp [first]

theorem ofGlyphs?_eq_some_iff {n : Numeral} : Numeral.ofGlyphs? gs = some n ↔ Plain gs n := by
  have steps : Numeral.ofGlyphs? gs = magnitude? (spanSign gs).1 (spanSign gs).2 := rfl
  rw [steps]
  constructor
  · intro read
    obtain ⟨sign, signed, whole⟩ := exists_signMark gs
    have written := Plain.mk signed (magnitude?_eq_some_iff.1 read)
    rwa [whole] at written
  · rintro ⟨signed, magnitude⟩
    obtain ⟨plus, minus⟩ := magnitude.head?_ne
    rw [spanSign_append signed plus minus]
    exact magnitude?_eq_some_iff.2 magnitude

/-- A text is read as a numeral exactly when it is written for that numeral. -/
theorem Numeral.read?_eq_some_iff {s : String} {n : Numeral} : read? s = some n ↔ n.Written s := by
  rw [read?, Option.bind_eq_some_iff]
  constructor
  · rintro ⟨joined, join, read⟩
    obtain ⟨lines, rfl⟩ := joinDigits_eq_some_iff.1 join
    obtain ⟨front, back, whole, before, behind, first, last⟩ := Text.trimOf_eq_iff.1 rfl
    exact ⟨front, _, back, whole, before, behind, first, last, lines, ofGlyphs?_eq_some_iff.1 read⟩
  · rintro ⟨front, core, back, whole, before, behind, first, last, lines, plain⟩
    rw [Text.trimOf_eq_iff.2 ⟨front, back, whole, before, behind, first, last⟩]
    exact ⟨_, joinDigits_eq_some_iff.2 ⟨lines, rfl⟩, ofGlyphs?_eq_some_iff.2 plain⟩

end ApiCatalog.Decimal
