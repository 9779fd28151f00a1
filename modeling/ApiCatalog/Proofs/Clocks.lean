/-
# ApiCatalog.Proofs.Clocks -- clocks that are exact, and time that waits

What a timeline does needs little of its clock.  What it does *when* takes more:
`Clock.Exact` asks of instants and spans what holds of exact numbers, those of a
commutative group with a linear order that adding keeps.  Floats round and have a
value that is no number, and are no such clock.

`Timeline.Prompt` says of one step that time waited for whoever could run: it moved
only if nobody was in line, and left no alarm behind.  Taking the earliest alarm is
such a step (`not_lt_of_takeEarliest`).
-/
import ApiCatalog.Proofs.Runs

namespace ApiCatalog

set_option autoImplicit false

/-- The arithmetic and the order of exact numbers. -/
class Clock.Exact (τ : Type) [Clock τ] : Prop where
  add_assoc : ∀ a b c : τ, a + b + c = a + (b + c)
  add_comm : ∀ a b : τ, a + b = b + a
  add_zero : ∀ a : τ, a + 0 = a
  sub_add_cancel : ∀ a b : τ, a - b + b = a
  lt_irrefl : ∀ a : τ, ¬ a < a
  lt_trans : ∀ {a b c : τ}, a < b → b < c → a < c
  lt_trichotomy : ∀ a b : τ, a < b ∨ a = b ∨ b < a
  add_lt_add_left : ∀ {a b : τ}, a < b → ∀ c : τ, c + a < c + b

/-- Whole units are exact. -/
instance : Clock.Exact Int where
  add_assoc := Int.add_assoc
  add_comm := Int.add_comm
  add_zero := Int.add_zero
  sub_add_cancel := Int.sub_add_cancel
  lt_irrefl := Int.lt_irrefl
  lt_trans := Int.lt_trans
  lt_trichotomy := Int.lt_trichotomy
  add_lt_add_left := Int.add_lt_add_left

/-- The later of two instants. -/
def later {τ : Type} [Clock τ] (s t : τ) : τ := if s < t then t else s

namespace Clock.Exact

variable {τ : Type} [Clock τ] [Exact τ] {a b c : τ}

theorem lt_asymm (h : a < b) : ¬ b < a := fun h' => lt_irrefl a (lt_trans h h')

/-- An instant not before one that is not before a third is not before the third. -/
theorem not_lt_trans (first : ¬ b < a) (second : ¬ c < b) : ¬ c < a := by
  intro less
  rcases lt_trichotomy a b with before | rfl | after
  · exact second (lt_trans less before)
  · exact second less
  · exact first after

theorem zero_add (a : τ) : 0 + a = a := by
  rw [add_comm, add_zero]

theorem eq_of_not_lt (first : ¬ a < b) (second : ¬ b < a) : a = b :=
  ((lt_trichotomy a b).resolve_left first).resolve_right second

theorem add_lt_add_iff_left (c : τ) : c + a < c + b ↔ a < b := by
  refine ⟨fun less => ?_, fun less => add_lt_add_left less c⟩
  rcases lt_trichotomy a b with before | rfl | after
  · exact before
  · exact absurd less (lt_irrefl _)
  · exact absurd less (lt_asymm (add_lt_add_left after c))

/-- What is added is taken off again. -/
theorem add_sub_of (a b : τ) : b + (a - b) = a := by
  rw [add_comm, sub_add_cancel]

/-! ### What is left of a span -/

/-- What is left of a span that began some time ago ends where the span does. -/
theorem add_left (span began now : τ) : now + (span - (now - began)) = began + span := by
  calc now + (span - (now - began))
      = began + (now - began) + (span - (now - began)) := by rw [add_sub_of]
    _ = began + span := by rw [add_assoc, add_sub_of]

/-- Something is left of a span until it has passed. -/
theorem left_pos_iff {span began now : τ} :
    0 < span - (now - began) ↔ now < began + span := by
  have less := add_lt_add_iff_left (a := 0) (b := span - (now - began)) now
  rw [add_zero, add_left] at less
  exact less.symm

/-! ### The later of two -/

theorem not_later_lt_left (a b : τ) : ¬ later a b < a := by
  unfold later
  split
  · exact lt_asymm ‹_›
  · exact lt_irrefl a

theorem not_later_lt_right (a b : τ) : ¬ later a b < b := by
  unfold later
  split
  · exact lt_irrefl b
  · assumption

omit [Exact τ] in
/-- What is not before either of two is not before the later one. -/
theorem not_lt_later (first : ¬ c < a) (second : ¬ c < b) : ¬ c < later a b := by
  unfold later
  split <;> assumption

omit [Exact τ] in
theorem later_eq_left (h : ¬ a < b) : later a b = a := if_neg h

theorem later_eq_right (h : ¬ b < a) : later a b = b := by
  unfold later
  split
  · rfl
  · exact eq_of_not_lt ‹_› h

theorem add_later (c a b : τ) : c + later a b = later (c + a) (c + b) := by
  simp only [later, add_lt_add_iff_left]
  split <;> rfl

end Clock.Exact

namespace Timeline

variable {τ α σ : Type} [Clock τ]

@[simp] theorem now_reach (moment : τ) (t : Timeline τ α σ) :
    (t.reach moment).now = later t.now moment := by
  unfold reach later
  split <;> rfl

@[simp] theorem now_ring (alarm : Alarm τ α) (others : List (Alarm τ α)) (t : Timeline τ α σ) :
    (t.ring alarm others).now = later t.now alarm.due := now_reach _ _

omit [Clock τ] in
/-- Time stands still while somebody has a turn if it does while those are called who can be. -/
theorem now_runTurn {act : α → Timeline τ α σ → Timeline τ α σ}
    (still : ∀ target t, (act target t).now = t.now) (turn : Turn α) (t : Timeline τ α σ) :
    (runTurn act turn t).now = t.now := by
  unfold runTurn
  split
  · exact still _ _
  · rfl

/-- Time has waited: it moved only if nobody was in line, and left no alarm behind. -/
def Prompt (t u : Timeline τ α σ) : Prop :=
  u.now = t.now ∨ t.ready = [] ∧ ∀ alarm ∈ t.alarms, ¬ alarm.due < u.now

/-- No alarm is due before the one that is taken. -/
theorem not_lt_of_takeEarliest [Clock.Exact τ] {alarms others : List (Alarm τ α)}
    {earliest : Alarm τ α} (taken : takeEarliest alarms = some (earliest, others)) :
    ∀ alarm ∈ alarms, ¬ alarm.due < earliest.due := by
  induction alarms generalizing earliest others with
  | nil => simp [takeEarliest] at taken
  | cons alarm rest ih =>
    simp only [takeEarliest] at taken
    split at taken
    · rename_i none
      cases takeEarliest_eq_none_iff.1 none
      cases taken
      simpa using Clock.Exact.lt_irrefl alarm.due
    · rename_i inner
      have least := ih inner
      split at taken <;> cases taken
      · rename_i sooner
        simpa using ⟨Clock.Exact.lt_asymm sooner, least⟩
      · rename_i first
        simp only [List.mem_cons, forall_eq_or_imp]
        exact ⟨Clock.Exact.lt_irrefl _, fun other mem =>
          Clock.Exact.not_lt_trans first (least other mem)⟩

/-- The earliest alarm goes off promptly if nobody is in line. -/
theorem prompt_ring [Clock.Exact τ] {t : Timeline τ α σ} {alarm : Alarm τ α}
    {others : List (Alarm τ α)} (taken : takeEarliest t.alarms = some (alarm, others))
    (line : t.ready = []) : t.Prompt (t.ring alarm others) := by
  by_cases ahead : t.now < alarm.due
  · refine .inr ⟨line, fun other mem => ?_⟩
    rw [now_ring, later, if_pos ahead]
    exact not_lt_of_takeEarliest taken other mem
  · exact .inl (by rw [now_ring, later, if_neg ahead])

/-- An alarm that is due already goes off promptly, whoever is in line. -/
theorem prompt_ring_of_due {t : Timeline τ α σ} {alarm : Alarm τ α} (due : ¬ t.now < alarm.due)
    (others : List (Alarm τ α)) : t.Prompt (t.ring alarm others) :=
  .inl (by rw [now_ring, later, if_neg due])

end Timeline

end ApiCatalog
