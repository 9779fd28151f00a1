/-
# ApiCatalog.Proofs.PromptSteering -- the helm while time waits

In a prompt run the helm sees time pass only while the loop has no turn in line, and
not beyond an alarm of the loop.  All else happens at one moment, since moves do not
turn back time (`Moves.keeps_now`).

So there are three things to look at for whatever is to hold of the helm in a prompt
run: orders, moves at one moment, and time that waits (`KeptPromptly`).
-/
import ApiCatalog.Proofs.PromptRuns

namespace ApiCatalog

set_option autoImplicit false

namespace Helm

variable {τ : Type} [Clock τ] {g h : Helm τ}

/-! ## Moves at one moment -/

/-- However the loop goes on, time stands still, and what has been taken down stays. -/
theorem frame_goOn (verdict : Verdict) (h : Helm τ) :
    (h.goOn verdict).now = h.now ∧ (h.goOn verdict).stopAsked = h.stopAsked ∧
      (h.goOn verdict).ticks = h.ticks ∧ (h.goOn verdict).endings = h.endings := by
  unfold goOn
  split
  · split
    · exact ⟨rfl, rfl, rfl, rfl⟩
    · unfold rest
      dsimp only
      split
      · split <;> exact ⟨rfl, rfl, rfl, rfl⟩
      · exact ⟨rfl, rfl, rfl, rfl⟩
  · exact ⟨rfl, rfl, rfl, rfl⟩

/-- Only an order asks the loop to stop. -/
theorem Move.stopAsked (move : Move g h) : h.stopAsked = g.stopAsked := by
  cases move with
  | learn refreshes verdict => exact (frame_goOn verdict (g.judge verdict)).2.1
  | _ => rfl

/-- Moves do not turn back time. -/
theorem Move.not_lt [Clock.Exact τ] (move : Move g h) : ¬ h.now < g.now := by
  cases move with
  | learn refreshes verdict =>
    have same : (g.learn verdict).now = g.now := (frame_goOn verdict (g.judge verdict)).1
    rw [same]
    exact Clock.Exact.lt_irrefl _
  | @ring alarm others set =>
    show ¬ (if g.now < alarm then alarm else g.now) < g.now
    split
    · exact Clock.Exact.lt_asymm ‹_›
    · exact Clock.Exact.lt_irrefl _
  | pass later => exact Clock.Exact.lt_asymm later
  | _ => exact Clock.Exact.lt_irrefl _

/-- What a move at one moment keeps, moves at one moment keep. -/
theorem Moves.keeps_now [Clock.Exact τ] {P : Helm τ → Prop}
    (move : ∀ g h, Move g h → h.now = g.now → P g → P h) (moves : g.Moves h)
    (now : h.now = g.now) (first : P g) : P h := by
  have all : ¬ h.now < g.now ∧ (h.now = g.now → P h) := by
    refine moves.keeps (P := fun h => ¬ h.now < g.now ∧ (h.now = g.now → P h)) ?_
      ⟨Clock.Exact.lt_irrefl _, fun _ => first⟩
    rintro h h' next ⟨since, holds⟩
    refine ⟨Clock.Exact.not_lt_trans since next.not_lt, fun same => ?_⟩
    -- between two worlds of one moment no time passes
    have still : h.now = g.now :=
      Clock.Exact.eq_of_not_lt since fun less => next.not_lt (same ▸ less)
    exact move h h' next (same.trans still.symm) (holds still)
  exact all.2 now

end Helm

namespace World

variable {τ σ κ : Type} [Clock τ] [DecidableEq κ] {source : Source τ σ κ} {strict : Bool}
  {v w : World τ σ κ}

/-! ## Prompt runs -/

/-- What holds of helms when orders, moves at one moment, and time that waits for the turns and the
alarms of the loop keep it. -/
structure KeptPromptly (P : Helm τ → Prop) : Prop where
  order : ∀ {c : Call τ} {g h : Helm τ}, Helm.Order c g h → g.Steered → P g → P h
  move : ∀ {g h : Helm τ}, Helm.Move g h → h.now = g.now → g.Steered → P g → P h
  elapse : ∀ {g : Helm τ} {moment : τ}, g.now < moment → g.turns = 0 →
    (∀ due ∈ g.dues, ¬ due < moment) → g.Steered → P g → P { g with now := moment }

section

variable [Clock.Exact τ] {P : Helm τ → Prop} (kept : KeptPromptly P)

include kept

omit [DecidableEq κ] in
theorem KeptPromptly.moves {g h : Helm τ} (moves : g.Moves h) (now : h.now = g.now)
    (steered : g.Steered) (holds : P g) : P h := by
  refine (moves.keeps_now (P := fun h => h.Steered ∧ P h) ?_ now ⟨steered, holds⟩).2
  rintro g h move now ⟨steered, holds⟩
  exact ⟨steered.move move, kept.move move now steered holds⟩

omit [DecidableEq κ] [Clock.Exact τ] in
/-- Time passes while nobody is in line, and not beyond an alarm. -/
theorem KeptPromptly.pass {moment : τ} (later : v.now < moment) (line : v.ready = [])
    (alarms : ∀ alarm ∈ v.alarms, ¬ alarm.due < moment) (steered : (helm v).Steered)
    (holds : P (helm v)) :
    (helm { v with now := moment }).Steered ∧ P (helm { v with now := moment }) := by
  have turns : (helm v).turns = 0 := by simp [helm, line]
  refine ⟨steered.move (.pass later), kept.elapse later turns (fun due set => ?_) steered holds⟩
  obtain ⟨alarm, mem, is⟩ := List.mem_filterMap.1 (Multiset.mem_coe.1 set)
  unfold loopDue? at is
  split at is <;> cases is
  exact alarms alarm mem

theorem KeptPromptly.step (reached : Reachable source strict v) (step : PromptStep source v w)
    (holds : P (helm v)) : P (helm w) := by
  obtain ⟨step, prompt⟩ := step
  obtain ⟨l, sound⟩ := reached.sound
  have steered := reached.steered
  by_cases same : w.now = v.now
  · rcases helm_of_step step sound with ⟨c, -, order⟩ | moves
    · exact kept.order order steered holds
    · exact kept.moves moves same steered holds
  · obtain ⟨line, alarms⟩ := prompt.resolve_left same
    cases step with
    | call c => exact absurd (now_call source c v) same
    | turn inLine =>
      rw [line] at inLine
      cases inLine.nil_eq
    | pass moment =>
      rw [Timeline.now_reach, later] at same alarms
      split at same
      · rename_i later
        rw [if_pos later] at alarms
        rw [Timeline.reach, if_pos later]
        exact (kept.pass later line alarms steered holds).2
      · exact absurd rfl same
    | @ring alarm others set =>
      rw [Timeline.now_ring, later] at same alarms
      split at same
      · -- first time passes, and then the alarm is due
        rename_i later
        rw [if_pos later] at alarms
        have rings : v.ring alarm others =
            Timeline.ring alarm others { v with now := alarm.due } := by
          simp [Timeline.ring, Timeline.reach, later, Clock.Exact.lt_irrefl]
        obtain ⟨steered, holds⟩ := kept.pass later line alarms steered holds
        rw [rings]
        refine kept.moves (steer_ring (w := { v with now := alarm.due }) set) ?_ steered holds
        exact (Timeline.now_ring _ _ _).trans (if_neg (Clock.Exact.lt_irrefl _))
      · exact absurd rfl same

/-- What orders, moves at one moment and time that waits keep, prompt runs of reachable worlds
keep. -/
theorem KeptPromptly.run (reached : Reachable source strict v) (onward : PromptRun source v w)
    (first : P (helm v)) : P (helm w) := by
  have both : Reachable source strict w ∧ P (helm w) := by
    refine onward.keeps (P := fun u => Reachable source strict u ∧ P (helm u)) ?_ ⟨reached, first⟩
    rintro u u' next ⟨reached, holds⟩
    exact ⟨reached.run ((Run.refl u).step next.1), kept.step reached next holds⟩
  exact both.2

end

end World

end ApiCatalog
