/-
# ApiCatalog.Proofs.Runs -- everything that can happen to a keeper

A run takes a world on by one `Step` after the other: a call is made, somebody
in line takes a turn, an alarm goes off, or time passes.  No order is imposed on
them.  Calls come at any moment and any number of them may be without an answer,
whoever is in line may be next, any alarm may go off, and time may pass while
others wait.  What holds of every run therefore holds whatever the delays are
and however the turns of the parts interleave.

The orderly ways to go on are runs (`run_settle`, `run_await`, `run_advance`),
so what holds of every run holds of them.
-/
import ApiCatalog.Keeper
import ApiCatalog.Proofs.Settling
import Mathlib.Logic.Relation

namespace ApiCatalog

set_option autoImplicit false

/-- Instants and spans in whole units. -/
instance : Clock Int where
  zero := .ofNat 0
  add := Int.add
  sub := Int.sub
  lt := Int.lt
  decLt := Int.decLt

namespace World

variable {τ σ κ : Type} [Clock τ] [DecidableEq κ] (source : Source τ σ κ)

/-- What may happen next to a world. -/
inductive Step : World τ σ κ → World τ σ κ → Prop
  /-- A call is made. -/
  | call (w : World τ σ κ) (c : Call τ) : Step w (call source c w)
  /-- Somebody in line takes a turn, whatever the place in line. -/
  | turn {w : World τ σ κ} {turn : Turn (Target κ)} {rest : List (Turn (Target κ))}
      (inLine : w.ready.Perm (turn :: rest)) :
      Step w (Timeline.runTurn (act source) turn { w with ready := rest })
  /-- An alarm goes off. -/
  | ring {w : World τ σ κ} {alarm : Alarm τ (Target κ)} {others : List (Alarm τ (Target κ))}
      (set : w.alarms.Perm (alarm :: others)) : Step w (w.ring alarm others)
  /-- Time passes. -/
  | pass (w : World τ σ κ) (moment : τ) : Step w (w.reach moment)

/-- The second world comes from the first by steps. -/
def Run : World τ σ κ → World τ σ κ → Prop := Relation.ReflTransGen (Step source)

/-- The worlds that a fresh keeper can come to. -/
def Reachable (strict : Bool) (w : World τ σ κ) : Prop := Run source (init strict) w

variable {source}

theorem Run.refl (w : World τ σ κ) : Run source w w := Relation.ReflTransGen.refl

theorem Run.trans {u v w : World τ σ κ} (first : Run source u v) (second : Run source v w) :
    Run source u w :=
  Relation.ReflTransGen.trans first second

theorem Run.step {u v w : World τ σ κ} (first : Run source u v) (last : Step source v w) :
    Run source u w :=
  Relation.ReflTransGen.tail first last

/-- A world is reachable after any further run. -/
theorem Reachable.run {strict : Bool} {v w : World τ σ κ} (reached : Reachable source strict v)
    (onward : Run source v w) : Reachable source strict w :=
  Run.trans reached onward

/-- What every step keeps, a run keeps. -/
theorem Run.keeps {P : World τ σ κ → Prop} (step : ∀ v w, Step source v w → P v → P w)
    {v w : World τ σ κ} (run : Run source v w) (first : P v) : P w := by
  unfold Run at run
  induction run with
  | refl => exact first
  | tail before last ih => exact step _ _ last ih

/-! ## The orderly ways to go on -/

theorem run_call (c : Call τ) (w : World τ σ κ) : Run source w (call source c w) :=
  (Run.refl w).step (.call w c)

/-- The turn of the head of the line, and then a run. -/
theorem run_of_ready {w w' : World τ σ κ} {turn : Turn (Target κ)}
    {rest : List (Turn (Target κ))} (line : w.ready = turn :: rest)
    (onward : Run source (Timeline.runTurn (act source) turn { w with ready := rest }) w') :
    Run source w w' :=
  Relation.ReflTransGen.head (.turn (line ▸ .refl _)) onward

/-- The earliest alarm goes off, and then a run. -/
theorem run_of_takeEarliest {w w' : World τ σ κ} {alarm : Alarm τ (Target κ)}
    {others : List (Alarm τ (Target κ))}
    (taken : Timeline.takeEarliest w.alarms = some (alarm, others))
    (onward : Run source (w.ring alarm others) w') : Run source w w' :=
  Relation.ReflTransGen.head (.ring (Timeline.perm_of_takeEarliest taken)) onward

theorem run_settle (fuel : Nat) (w : World τ σ κ) : Run source w (settle source fuel w) :=
  Timeline.chain_settle (fun _ _ _ line => .turn (line ▸ .refl _))
    (fun _ _ _ taken _ => .ring (Timeline.perm_of_takeEarliest taken)) fuel w

theorem run_awaitRounds (done : Keeper τ σ → Bool) (fuel rounds : Nat) (w : World τ σ κ) :
    Run source w (Timeline.await (act source) done fuel rounds w) :=
  Timeline.chain_await (P := fun _ => True) (fun w _ => run_settle fuel w)
    (fun _ _ _ _ _ taken => ⟨.ring (Timeline.perm_of_takeEarliest taken), trivial⟩) rounds trivial

theorem run_await (id fuel : Nat) (w : World τ σ κ) : Run source w (await source id fuel w) :=
  run_awaitRounds _ fuel fuel w

theorem run_until (moment : τ) (fuel rounds : Nat) (w : World τ σ κ) :
    Run source w (Timeline.runUntil (act source) moment fuel rounds w) := by
  induction rounds generalizing w with
  | zero => exact .refl w
  | succ rounds ih =>
    have reach : Run source w (Timeline.settle (act source) fuel (w.reach moment)) :=
      ((Run.refl w).step (.pass w moment)).trans (run_settle fuel _)
    simp only [Timeline.runUntil]
    split
    · rename_i alarm others taken
      split
      · exact run_of_takeEarliest taken ((run_settle fuel _).trans (ih _))
      · exact reach
    · exact reach

theorem run_advance (span : τ) (fuel : Nat) (w : World τ σ κ) :
    Run source w (advance source span fuel w) :=
  (run_settle fuel w).trans (run_until _ fuel fuel _)

end World

end ApiCatalog
