/-
# ApiCatalog.Proofs.Fetches -- what a fetch may end with

A fetch goes on each time it is called with one of its tokens.  `Source.Course`
gathers what it may have done by then, whichever tokens come and in whichever
order, and `Source.Yields` what it may end with.

`Source.answering` gives each fetch a reply of its own, at once or after a
delay.  Its fetches end with their replies and with nothing else
(`yields_answering_iff`); a script is the case in which the last reply repeats.
-/
import ApiCatalog.Source

namespace ApiCatalog

set_option autoImplicit false

namespace Source

variable {τ σ κ : Type}

/-- What the fetch of a number may have done when it stops for the moment. -/
inductive Course (source : Source τ σ κ) (n : Nat) : Progress τ σ κ → Prop
  | start : Course source n (source.start n)
  | resume {p : Progress τ σ κ} (before : Course source n p) (unfinished : p.outcome = none)
      (token : κ) : Course source n (source.resume p.work token)

/-- The fetch of a number may end with an outcome. -/
def Yields (source : Source τ σ κ) (n : Nat) (outcome : Outcome) : Prop :=
  ∃ p, source.Course n p ∧ p.outcome = some outcome

/-- The source that gives each fetch its own reply. -/
def answering (replies : Nat → Reply τ (Option (List Listing))) : Source τ Outcome Unit where
  start n :=
    match (replies n).delay with
    | none => { work := (replies n).answer, outcome := some (replies n).answer }
    | some delay => { work := (replies n).answer, delays := [(delay, ())] }
  resume answer _ := { work := answer, outcome := some answer }

theorem scripted_eq_answering (script : Script (Reply τ (Option (List Listing)))) :
    scripted script = answering script.at := rfl

variable {replies : Nat → Reply τ (Option (List Listing))}

variable (replies) in
/-- What the first fetches end with. -/
def firstResults (count : Nat) : List Outcome :=
  (List.range count).map fun n => (replies n).answer

/-- The first fetch fails after two units; the others find nothing, at once. -/
def unsteady : Nat → Reply Int (Option (List Listing))
  | 0 => ⟨some 2, .error (.raised .timeout "timed out")⟩
  | _ => ⟨none, .ok (some [])⟩

/-- The work of a fetch is the answer that it will end with. -/
theorem work_of_course {n : Nat} {p : Progress τ Outcome Unit}
    (course : (answering replies).Course n p) :
    p.work = (replies n).answer ∧ ∀ outcome, p.outcome = some outcome → outcome = p.work := by
  induction course with
  | start =>
    simp only [answering]
    split <;> simp
  | resume before unfinished token ih =>
    simp [answering, ih.1]

/-- A fetch ends with its own reply, and with nothing else. -/
theorem yields_answering_iff {n : Nat} {outcome : Outcome} :
    (answering replies).Yields n outcome ↔ outcome = (replies n).answer := by
  constructor
  · rintro ⟨p, course, ends⟩
    obtain ⟨work, same⟩ := work_of_course course
    rw [same outcome ends, work]
  · rintro rfl
    cases later : (replies n).delay with
    | none => exact ⟨_, .start, by simp [answering, later]⟩
    | some delay =>
      have unfinished : ((answering replies).start n).outcome = none := by
        simp [answering, later]
      refine ⟨_, .resume .start unfinished (), ?_⟩
      simp [answering, later]

end Source

end ApiCatalog
