/-
# ApiCatalog.Proofs.Bounds -- what keeps the two times of the settings within their bounds

A time is raised to its lower bound and then lowered to its upper one, each time by one
strict comparison.  Whatever text a variable holds, short of one refused, the time read
from it ends within its bounds: numbers below and above, and the infinities that too
large an exponent makes (`clamp_within`).  The one text that escapes is the word `nan`, in
any case, padded or with a sign: no number is less than no number, so both comparisons
pass it on as it is (`clamp_of_isNaN`).

`load_kept` says so of every environment, with `Kept`: a time is within its bounds unless
its variable says `nan`, and is then no number.  Both poles follow it: an environment
with one time of either sort (`load_kept_of_strained`), and one whose refresh interval
leaves its bounds (`refresh_interval_escapes`).
-/
import ApiCatalog.Settings
import ApiCatalog.Proofs.Floats

namespace ApiCatalog.Settings

set_option autoImplicit false

variable {env : Environment} {key text : String} {least most default x : Float}

/-- What is no number passes both bounds. -/
theorem clamp_of_isNaN (h : x.isNaN = true) : clamp (some least) (some most) x = x := by
  have raised : ¬ x < least := fun less => (Floats.not_isNaN_of_lt less).1 h
  have lowered : ¬ most < x := fun less => (Floats.not_isNaN_of_lt less).2 h
  simp only [clamp, raiseTo, lowerTo, if_neg raised, if_neg lowered]

theorem le_raiseTo (low : ¬ least.isNaN = true) (h : ¬ x.isNaN = true) :
    least ≤ raiseTo (some least) x := by
  unfold raiseTo
  dsimp only
  split
  case isTrue => exact Floats.le_refl low
  case isFalse fits => exact Floats.le_of_not_lt h low fits

/-- A number is clamped to one within the bounds, if these leave room for one. -/
theorem clamp_within (room : least ≤ most) (h : ¬ x.isNaN = true) :
    least ≤ clamp (some least) (some most) x ∧ clamp (some least) (some most) x ≤ most := by
  obtain ⟨low, high⟩ := Floats.not_isNaN_of_le room
  have raised := le_raiseTo low h
  obtain ⟨-, number⟩ := Floats.not_isNaN_of_le raised
  unfold clamp lowerTo
  dsimp only
  split
  case isTrue => exact ⟨room, Floats.le_refl high⟩
  case isFalse fits => exact ⟨raised, Floats.le_of_not_lt high number fits⟩

/-- A variable holds the word for no number. -/
def SaysNoNumber (env : Environment) (key : String) : Prop :=
  ∃ text, env.setting? key = some text ∧ Decimal.Numeral.read? text = some .nan

/-- A time that is within its bounds unless its variable says `nan`, and then is no number. -/
structure Kept (env : Environment) (key : String) (least most x : Float) : Prop where
  within_iff : least ≤ x ∧ x ≤ most ↔ ¬ SaysNoNumber env key
  spoilt : SaysNoNumber env key → x.isNaN = true

theorem kept_of_number (room : least ≤ most) (plain : ¬ SaysNoNumber env key)
    (h : ¬ x.isNaN = true) : Kept env key least most (clamp (some least) (some most) x) :=
  ⟨iff_of_true (clamp_within room h) plain, fun nan => absurd nan plain⟩

theorem kept_of_isNaN (nan : SaysNoNumber env key) (h : x.isNaN = true) :
    Kept env key least most (clamp (some least) (some most) x) := by
  rw [clamp_of_isNaN h]
  refine ⟨iff_of_false ?_ (not_not_intro nan), fun _ => h⟩
  intro within
  exact (Floats.not_isNaN_of_le within.1).2 h

/-- A default that is a number is kept, and so is whatever a text is read as. -/
theorem number_kept (room : least ≤ most) (plain : ¬ default.isNaN = true)
    (read : number env key default (some least) (some most) = .ok x) :
    Kept env key least most x := by
  unfold number at read
  cases held : env.setting? key with
  | none =>
    simp only [held, Except.ok.injEq] at read
    subst read
    have silent : ¬ SaysNoNumber env key := by simp [SaysNoNumber, held]
    exact kept_of_number room silent plain
  | some text =>
    simp only [held] at read
    cases means : Decimal.Numeral.read? text with
    | none => simp [means] at read
    | some numeral =>
      simp only [means, Except.ok.injEq] at read
      subst read
      have nan_iff : SaysNoNumber env key ↔ numeral = .nan := by
        simp [SaysNoNumber, held, means]
      rw [← Floats.isNaN_toFloat_iff] at nan_iff
      by_cases nan : numeral.toFloat.isNaN = true
      · exact kept_of_isNaN (nan_iff.mpr nan) nan
      · exact kept_of_number room (mt nan_iff.mp nan) nan

/-- Settings that were read hold the two numbers that were read for them. -/
theorem times_of_load {s : Settings} (loaded : load env = .ok s) :
    number env "REFRESH_INTERVAL" 30.0 (some 1.0) (some 3600.0) = .ok s.refreshInterval ∧
      number env "REQUEST_TIMEOUT" 10.0 (some 1.0) (some 120.0) = .ok s.requestTimeout := by
  obtain ⟨interval, timeout, -⟩ := load_eq_ok_iff.1 loaded
  exact ⟨interval, timeout⟩

/-- Settings that were read hold times within their bounds, but for a variable that says `nan`. -/
theorem load_kept {s : Settings} (loaded : load env = .ok s) :
    Kept env "REFRESH_INTERVAL" 1.0 3600.0 s.refreshInterval ∧
      Kept env "REQUEST_TIMEOUT" 1.0 120.0 s.requestTimeout := by
  obtain ⟨interval, timeout⟩ := times_of_load loaded
  constructor
  · exact number_kept (by decide) (by decide) interval
  · exact number_kept (by decide) (by decide) timeout

/-- An environment whose refresh interval is too large for a float and whose timeout is no
number. -/
def strained : Environment := fun name =>
  if name = "KUBEDISCOVERY_REFRESH_INTERVAL" then some "1e400"
  else if name = "KUBEDISCOVERY_REQUEST_TIMEOUT" then some " -NaN "
  else none

/-- A time beyond all floats ends at its bound, while the word for no number is kept as it is. -/
theorem load_kept_of_strained : ∃ s, load strained = .ok s ∧
    (Kept strained "REFRESH_INTERVAL" 1.0 3600.0 s.refreshInterval ∧
      Kept strained "REQUEST_TIMEOUT" 1.0 120.0 s.requestTimeout) ∧
    s.refreshInterval = 3600.0 ∧ s.requestTimeout.isNaN = true :=
  ⟨_, rfl, load_kept rfl, by decide, by decide⟩

/-- A refresh interval that says `nan` leaves its bounds. -/
theorem refresh_interval_escapes : ¬ ∀ (env : Environment) (s : Settings), load env = .ok s →
    (1.0 ≤ s.refreshInterval ∧ s.refreshInterval ≤ 3600.0) ∧
      (1.0 ≤ s.requestTimeout ∧ s.requestTimeout ≤ 120.0) := by
  intro bounded
  have := bounded
    (fun name => if name = "KUBEDISCOVERY_REFRESH_INTERVAL" then some "nan" else none) _ rfl
  revert this
  decide

end ApiCatalog.Settings
