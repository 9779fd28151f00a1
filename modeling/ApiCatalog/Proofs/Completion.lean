/-
# ApiCatalog.Proofs.Completion -- a fetch under every order of completion

By itself a fetch goes on as those in line take their turns, first come first
served, and as its alarms go off.  A `Fetch.Step` leaves open which alarm that is
and when: requests that are out may be replied to in any order, before or after
somebody in line had a turn.  What holds of everything that a fetch can come to
(`Fetch.Reachable`) holds however the replies are timed.

Running a fetch is one of these orders (`reachable_run`), and from wherever a
fetch has got it comes to its end (`Reachable.ends`).  Along the way it waits for
calls as long as it has not ended, and only then (`Reachable.waits_iff`).
-/
import ApiCatalog.Proofs.Settling
import Mathlib.Logic.Relation

namespace ApiCatalog

set_option autoImplicit false

namespace Fetch

variable {τ σ κ : Type} [Clock τ] (source : Source τ σ κ)

/-- What may happen next to a fetch by itself. -/
inductive Step : Timeline τ κ (Fetch τ σ) → Timeline τ κ (Fetch τ σ) → Prop
  /-- The head of the line takes its turn. -/
  | turn {t : Timeline τ κ (Fetch τ σ)} {turn : Turn κ} {rest : List (Turn κ)}
      (line : t.ready = turn :: rest) :
      Step t (Timeline.runTurn (act source) turn { t with ready := rest })
  /-- An alarm goes off, whichever it is. -/
  | ring {t : Timeline τ κ (Fetch τ σ)} {alarm : Alarm τ κ} {others : List (Alarm τ κ)}
      (set : t.alarms.Perm (alarm :: others)) : Step t (t.ring alarm others)

/-- What the first fetch can come to. -/
def Reachable (t : Timeline τ κ (Fetch τ σ)) : Prop :=
  Relation.ReflTransGen (Step source) (start source) t

/-- The fetch has ended. -/
def Ended (t : Timeline τ κ (Fetch τ σ)) : Prop := t.state.outcome ≠ none

instance (t : Timeline τ κ (Fetch τ σ)) : Decidable (Ended t) :=
  decidable_of_iff (t.state.outcome.isSome = true) Option.isSome_iff_ne_none

variable {source} {t u : Timeline τ κ (Fetch τ σ)}

/-- What holds at the start and is kept by every step holds of all that a fetch can come to. -/
theorem Reachable.keeps {P : Timeline τ κ (Fetch τ σ) → Prop} (first : P (start source))
    (step : ∀ t u, P t → Step source t u → P u) (reached : Reachable source t) : P t := by
  induction reached with
  | refl => exact first
  | tail before last ih => exact step _ _ ih last

/-! ## Orderly ways to go on -/

theorem steps_settle (fuel : Nat) (t : Timeline τ κ (Fetch τ σ)) :
    Relation.ReflTransGen (Step source) t (Timeline.settle (act source) fuel t) :=
  Timeline.chain_settle (fun _ _ _ => .turn)
    (fun _ _ _ taken _ => .ring (Timeline.perm_of_takeEarliest taken)) fuel t

theorem reachable_await (done : Fetch τ σ → Bool) (fuel rounds : Nat)
    (reached : Reachable source t) :
    Reachable source (Timeline.await (act source) done fuel rounds t) :=
  reached.trans <| Timeline.chain_await (P := fun _ => True) (fun t _ => steps_settle fuel t)
    (fun _ _ _ _ _ taken => ⟨.ring (Timeline.perm_of_takeEarliest taken), trivial⟩) rounds trivial

variable (source) in
theorem reachable_run (fuel : Nat) : Reachable source (run source fuel) :=
  reachable_await _ fuel fuel .refl

/-! ## The calls that are waited for -/

variable {cost : κ → Nat} (finite : source.Finite 0 cost)

include finite

theorem Underway.step (underway : Underway source t) (step : Step source t u) :
    Underway source u := by
  cases step with
  | turn line => exact ((drains finite).turn underway line).1
  | ring set => exact underway.ring set

theorem Reachable.underway (reached : Reachable source t) : Underway source t :=
  reached.keeps (underway_start source) fun _ _ underway step => underway.step finite step

/-- Somebody is still to be called just as long as the fetch has not ended. -/
theorem Reachable.waits_iff (reached : Reachable source t) : t.targets ≠ [] ↔ ¬ Ended t := by
  obtain ⟨p, owed, underway, same, -, ended⟩ := reached.underway finite
  have empty : t.targets = [] ↔ owed = [] :=
    ⟨fun none => (none ▸ same).nil_eq.symm, fun none => (none ▸ same).eq_nil⟩
  rw [Ended, ended, not_not, finite.ends underway, ne_eq, ne_eq, empty]

/-- Wherever a fetch has got, it comes to its end. -/
theorem Reachable.ends (reached : Reachable source t) : ∃ enough, ∀ fuel ≥ enough,
    Ended (Timeline.await (act source) (·.outcome.isSome) fuel fuel t) := by
  refine ⟨t.load cost + 1, fun fuel enough => ?_⟩
  obtain ⟨outcome, ended, -⟩ := (reached.underway finite).await_ends finite enough
  simp [Ended, ended]

end Fetch

end ApiCatalog
