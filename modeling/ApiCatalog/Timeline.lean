/-
# ApiCatalog.Timeline -- parts that take turns, and time that waits for them

A `Timeline` is a state whose parts run one at a time.  A part runs when its
turn comes: turns stand in one line, first come first served, and an alarm puts
a turn into the line when its time has come.  Time moves only while the line is
empty, and then to the earliest alarm or to a moment that is asked for.

A turn may have to go to the end of the line some times before it counts
(`Turn.relays`): that is how a signal which passes through intermediaries
arrives after everything that was in line when it was given.

What a part does with its turn is a function `act : α → Timeline τ α σ →
Timeline τ α σ` of its name; `settle`, `await` and `advance` run the line by it.
They take fuel, since parts may keep each other busy for ever.

* `Quiet t` says that nothing can run without time passing; `settle_of_quiet`:
  nothing then does;
* `perm_of_takeEarliest`: taking the earliest alarm loses none.
-/

namespace ApiCatalog

set_option autoImplicit false

/-- Instants and spans of time. -/
class Clock (τ : Type) extends Zero τ, Add τ, Sub τ, LT τ where
  decLt : DecidableLT τ

instance instDecidableLTOfClock {τ : Type} [Clock τ] : DecidableLT τ := Clock.decLt

instance : Clock Float where
  decLt := inferInstance

/-- A place in the line. -/
structure Turn (α : Type) where
  target : α
  /-- How often the turn goes to the end of the line before it counts. -/
  relays : Nat := 0

/-- A turn that is given when its time has come. -/
structure Alarm (τ α : Type) where
  due : τ
  target : α

/-- A state whose parts take turns in time. -/
structure Timeline (τ α σ : Type) where
  now : τ
  ready : List (Turn α) := []
  alarms : List (Alarm τ α) := []
  state : σ

namespace Timeline

variable {τ α σ : Type}

/-- Change the state. -/
def modify (f : σ → σ) (t : Timeline τ α σ) : Timeline τ α σ := { t with state := f t.state }

/-- Give a part a turn at the end of the line. -/
def wake (target : α) (relays : Nat) (t : Timeline τ α σ) : Timeline τ α σ :=
  { t with ready := t.ready ++ [⟨target, relays⟩] }

/-- Give several parts a turn, in this order. -/
def wakeAll (targets : List α) (relays : Nat) (t : Timeline τ α σ) : Timeline τ α σ :=
  { t with ready := t.ready ++ targets.map (⟨·, relays⟩) }

/-- Take back the alarms of a part. -/
def disarm [DecidableEq α] (target : α) (t : Timeline τ α σ) : Timeline τ α σ :=
  { t with alarms := t.alarms.filter fun alarm => alarm.target ≠ target }

/-- A turn at the head of the line: it counts, or it goes to the end once more. -/
def runTurn (act : α → Timeline τ α σ → Timeline τ α σ) (turn : Turn α) (t : Timeline τ α σ) :
    Timeline τ α σ :=
  match turn.relays with
  | 0 => act turn.target t
  | relays + 1 => t.wake turn.target relays

variable [Clock τ]

/-- Give a part a turn after a span of time. -/
def arm (delay : τ) (target : α) (t : Timeline τ α σ) : Timeline τ α σ :=
  { t with alarms := t.alarms ++ [⟨t.now + delay, target⟩] }

/-- The earliest of some alarms, and the others. -/
def takeEarliest : List (Alarm τ α) → Option (Alarm τ α × List (Alarm τ α))
  | [] => none
  | alarm :: rest =>
    match takeEarliest rest with
    | none => some (alarm, [])
    | some (earliest, others) =>
      if earliest.due < alarm.due then some (earliest, alarm :: others) else some (alarm, rest)

@[simp] theorem takeEarliest_eq_none_iff {alarms : List (Alarm τ α)} :
    takeEarliest alarms = none ↔ alarms = [] := by
  cases alarms with
  | nil => simp [takeEarliest]
  | cons alarm rest =>
    simp only [takeEarliest]
    split
    · simp
    · split <;> simp

/-- Taking the earliest alarm loses none. -/
theorem perm_of_takeEarliest {alarms others : List (Alarm τ α)} {earliest : Alarm τ α}
    (taken : takeEarliest alarms = some (earliest, others)) :
    alarms.Perm (earliest :: others) := by
  induction alarms generalizing others with
  | nil => simp [takeEarliest] at taken
  | cons alarm rest ih =>
    simp only [takeEarliest] at taken
    split at taken
    · rename_i none
      cases takeEarliest_eq_none_iff.1 none
      cases taken
      exact .refl _
    · rename_i inner
      split at taken <;> cases taken
      · exact ((ih inner).cons alarm).trans (.swap _ _ _)
      · exact .refl _

/-- Time moves on to a moment, unless that has passed already. -/
def reach (moment : τ) (t : Timeline τ α σ) : Timeline τ α σ :=
  if t.now < moment then { t with now := moment } else t

/-- An alarm goes off, the others being left, and gives its part a turn. -/
def ring (alarm : Alarm τ α) (others : List (Alarm τ α)) (t : Timeline τ α σ) : Timeline τ α σ :=
  ({ t with alarms := others }.reach alarm.due).wake alarm.target 0

/-- Nothing can run without time passing: nobody is in line and no alarm is due. -/
def Quiet (t : Timeline τ α σ) : Prop := t.ready = [] ∧ ∀ alarm ∈ t.alarms, t.now < alarm.due

variable (act : α → Timeline τ α σ → Timeline τ α σ)

/-- Run until nothing can run without time passing. -/
def settle : Nat → Timeline τ α σ → Timeline τ α σ
  | 0, t => t
  | fuel + 1, t =>
    match t.ready with
    | turn :: rest => settle fuel (runTurn act turn { t with ready := rest })
    | [] =>
      match takeEarliest t.alarms with
      | none => t
      | some (alarm, others) =>
        if t.now < alarm.due then t else settle fuel (t.ring alarm others)

/-- Where nothing can run, nothing runs. -/
theorem settle_of_quiet {t : Timeline τ α σ} (quiet : t.Quiet) (fuel : Nat) :
    settle act fuel t = t := by
  cases fuel with
  | zero => rfl
  | succ fuel =>
    simp only [settle, quiet.1]
    split
    · rfl
    · rename_i earliest others taken
      have later := quiet.2 earliest ((perm_of_takeEarliest taken).mem_iff.2 (by simp))
      simp [later]

/-- Run, letting time pass, until something is the case or nothing is left to wait for. -/
def await (done : σ → Bool) (fuel : Nat) : Nat → Timeline τ α σ → Timeline τ α σ
  | 0, t => t
  | rounds + 1, t =>
    let t := settle act fuel t
    if done t.state then t
    else
      match takeEarliest t.alarms with
      | none => t
      | some (alarm, others) => await done fuel rounds (t.ring alarm others)

/-- Run until a moment, and what can run at that moment too. -/
def runUntil (moment : τ) (fuel : Nat) : Nat → Timeline τ α σ → Timeline τ α σ
  | 0, t => t
  | rounds + 1, t =>
    match takeEarliest t.alarms with
    | some (alarm, others) =>
      if alarm.due < moment then
        runUntil moment fuel rounds (settle act fuel (t.ring alarm others))
      else settle act fuel (t.reach moment)
    | none => settle act fuel (t.reach moment)

/-- Let a span of time pass. -/
def advance (span : τ) (fuel : Nat) (t : Timeline τ α σ) : Timeline τ α σ :=
  runUntil act (t.now + span) fuel fuel (settle act fuel t)

end Timeline

end ApiCatalog
