/-
# ApiCatalog.Proofs.Lifecycle -- a keeper lives once

A keeper is idle until the first call to start or to stop.  One to start creates
the loop, and the keeper is running until the loop has ended; one to stop before
that is the end, and no loop is ever created.

`lives_once` says so of any two worlds of a run, and of the next step after them:
which steps create a loop, and what a call to start does otherwise.
-/
import ApiCatalog.Proofs.Steered

namespace ApiCatalog

set_option autoImplicit false

/-- How the life of a keeper may go on. -/
inductive Lifecycle.Next : Lifecycle → Lifecycle → Prop
  | start : Next .idle .running
  | stop : Next .running .stopped
  | retire : Next .idle .stopped

/-- Nothing comes after the end. -/
theorem Lifecycle.eq_of_stopped {life : Lifecycle}
    (onward : Relation.ReflTransGen Next .stopped life) : life = .stopped := by
  induction onward with
  | refl => rfl
  | tail before next ih =>
    subst ih
    cases next

namespace Helm

variable {τ : Type} {f g h : Helm τ} {c : Call τ} {l : Loop τ}

/-- How the life of a keeper and its loop may come on. -/
structure Onward (g h : Helm τ) : Prop where
  life : Relation.ReflTransGen Lifecycle.Next g.lifecycle h.lifecycle
  /-- A loop stays the loop that it is. -/
  loop : ∀ l, g.loop = some l → ∃ phase, h.loop = some { l with phase }
  /-- After the end there will be no loop if there was none. -/
  barren : g.lifecycle = .stopped → g.loop = none → h.loop = none

namespace Onward

theorem refl (h : Helm τ) : h.Onward h := ⟨.refl, fun l there => ⟨l.phase, there⟩, fun _ => id⟩

theorem trans (first : f.Onward g) (second : g.Onward h) : f.Onward h := by
  refine ⟨first.life.trans second.life, fun l there => ?_, fun stopped none => ?_⟩
  · obtain ⟨phase, there'⟩ := first.loop l there
    exact second.loop { l with phase } there'
  · have stopped' : g.lifecycle = .stopped := Lifecycle.eq_of_stopped (stopped ▸ first.life)
    exact second.barren stopped' (first.barren stopped none)

/-- The loop goes on, and the life as it was. -/
theorem setPhase (g : Helm τ) (phase : LoopPhase τ) (life : h.lifecycle = g.lifecycle)
    (loop : h.loop = (g.setPhase phase).loop) : g.Onward h := by
  refine ⟨life ▸ .refl, fun l there => ⟨phase, ?_⟩, fun _ none => ?_⟩
  · rw [loop, Helm.setPhase, there, Option.map_some]
  · rw [loop, Helm.setPhase, none, Option.map_none]

/-- Neither the life nor the loop goes on. -/
theorem of_eq (life : h.lifecycle = g.lifecycle) (loop : h.loop = g.loop) : g.Onward h := by
  refine ⟨life ▸ .refl, fun l there => ⟨l.phase, loop.trans there⟩, fun _ none => ?_⟩
  exact loop.trans none

/-- The loop comes to its end, and with it the life. -/
theorem endLoop (lived : g.Lived) (there : g.loop = some l) (goes : l.phase.isEnded = false)
    (cancelled : Bool) (life : h.lifecycle = .stopped)
    (loop : h.loop = (g.endLoop cancelled).loop) : g.Onward h := by
  have running := lived.lifecycle_of_loop there goes
  refine ⟨?_, fun l there => ⟨.ended cancelled, ?_⟩, fun stopped => ?_⟩
  · rw [running, life]
    exact .single .stop
  · rw [loop, Helm.endLoop, Helm.setPhase, there, Option.map_some]
  · cases running.symm.trans stopped

end Onward

theorem Order.onward (order : Order c g h) (lived : g.Lived) : g.Onward h := by
  cases order with
  | found idle interval =>
    refine ⟨?_, fun l there => ?_, fun stopped => ?_⟩
    · rw [idle]
      exact .single .start
    · cases (lived.loop_of_idle idle).1.symm.trans there
    · cases idle.symm.trans stopped
  | ignore busy interval => exact .of_eq rfl rfl
  | retire loopless =>
    refine ⟨?_, fun l there => ?_, fun _ => id⟩
    · cases life : g.lifecycle with
      | idle => exact .single .retire
      | running =>
        obtain ⟨interval, there⟩ := lived.running.1 life
        simp [hull, loopless] at there
      | stopped => exact .refl
    · cases loopless.symm.trans there
  | ask there awake => exact .of_eq rfl rfl
  | rouse rests => exact .setPhase g .pending rfl rfl

section

variable [Clock τ]

theorem Move.onward (move : Move g h) (lived : g.Lived) : g.Onward h := by
  cases move with
  | @quit l rest turn there poised asked =>
    exact .endLoop lived there (LoopPhase.isEnded_of_isPoised poised) false rfl rfl
  | tick turn there poised unasked => exact .setPhase g (.refreshing g.now) rfl rfl
  | learn refreshes verdict =>
    have there : (g.judge verdict).loop = _ := refreshes
    show g.Onward ((g.judge verdict).goOn verdict)
    rcases goOn_cases there verdict with ⟨-, ends⟩ | ⟨-, ⟨-, ends⟩ | ⟨left, rests⟩ | goes⟩
    · rw [ends]
      exact .endLoop lived refreshes rfl true rfl rfl
    · rw [ends]
      exact .endLoop lived refreshes rfl false rfl rfl
    · rw [rests]
      exact .setPhase g .resting rfl rfl
    · rw [goes]
      exact .setPhase g .pending rfl rfl
  | _ => exact .of_eq rfl rfl

/-- No move creates a loop, or is the end of a life without one. -/
theorem Move.of_loopless (move : Move g h) (loopless : g.loop = none) :
    h.loop = none ∧ h.lifecycle = g.lifecycle := by
  cases move with
  | quit turn there poised asked => cases loopless.symm.trans there
  | tick turn there poised unasked => cases loopless.symm.trans there
  | learn refreshes verdict => cases loopless.symm.trans refreshes
  | _ => exact ⟨loopless, rfl⟩

theorem Moves.of_loopless (moves : g.Moves h) (loopless : g.loop = none) :
    h.loop = none ∧ h.lifecycle = g.lifecycle := by
  refine moves.keeps (P := fun h => h.loop = none ∧ h.lifecycle = g.lifecycle) ?_ ⟨loopless, rfl⟩
  rintro h h' move ⟨loopless, same⟩
  obtain ⟨loopless', same'⟩ := move.of_loopless loopless
  exact ⟨loopless', same'.trans same⟩

end

/-- Only a call to start that finds the keeper idle creates a loop. -/
theorem Order.founds (order : Order c g h) (loopless : g.loop = none) (there : h.loop = some l) :
    c = .start l.interval ∧ g.lifecycle = .idle := by
  cases order with
  | found idle interval =>
    cases there
    exact ⟨rfl, idle⟩
  | ignore busy interval => cases loopless.symm.trans there
  | retire _ => cases loopless.symm.trans there
  | ask there' awake => cases loopless.symm.trans there'
  | rouse rests => cases loopless.symm.trans rests

/-- A call that ends an idle life creates no loop. -/
theorem Order.retires (order : Order c g h) (loopless : g.loop = none)
    (stopped : h.lifecycle = .stopped) : h.loop = none := by
  cases order with
  | found idle interval => cases stopped
  | ignore busy interval => exact loopless
  | retire _ => exact loopless
  | ask there awake => cases loopless.symm.trans there
  | rouse rests => cases loopless.symm.trans rests

end Helm

namespace World

variable {τ σ κ : Type} [Clock τ] [DecidableEq κ] {source : Source τ σ κ} {strict : Bool}
  {v w : World τ σ κ}

/-- Along every run the life goes on, and the loop stays the loop that it is. -/
theorem Reachable.onward (reached : Reachable source strict v) (run : Run source v w) :
    (helm v).Onward (helm w) := by
  have both : (helm w).Lived ∧ (helm v).Onward (helm w) := by
    refine Reachable.steers (P := fun h => h.Lived ∧ (helm v).Onward h) ?_ ?_ reached run
      ⟨reached.steered.lived, .refl _⟩
    · rintro c g h order ⟨lived, before⟩
      exact ⟨lived.order order, before.trans (order.onward lived)⟩
    · rintro g h move ⟨lived, before⟩
      exact ⟨lived.move move, before.trans (move.onward lived)⟩
  exact both.2

/-! ## Calls to start -/

/-- A call to start that finds the keeper idle creates the loop, and gives it a turn. -/
theorem call_start_of_idle (idle : w.state.lifecycle = .idle) (interval : τ) :
    call source (.start interval) w = (w.modify fun k =>
      { k with
        lifecycle := .running
        loop := some { interval }
        callers := k.callers ++ [⟨.start interval, some .done⟩]
        journal := k.journal ++ [.event (.started interval)] }).wake .loop 0 := by
  simp [call, startLoop, idle, say, note, Timeline.modify, Timeline.wake, Keeper.note,
    Keeper.answer, Core.modify_after]

/-- Any other call to start is answered and noted, and changes nothing else. -/
theorem call_start_of_busy (busy : w.state.lifecycle ≠ .idle) (interval : τ) :
    call source (.start interval) w = w.modify fun k =>
      { k with
        callers := k.callers ++ [⟨.start interval, some .done⟩]
        journal := k.journal ++ [.event (.startIgnored k.lifecycle)] } := by
  cases life : w.state.lifecycle with
  | idle => exact absurd life busy
  | _ => simp [call, startLoop, life, say, note, Timeline.modify, Keeper.note, Keeper.answer,
      Core.modify_after]

/-! ## Lives -/

/-- What has become of a keeper on the way from one world to a later one, and what the next step
after that can do. -/
structure LivesOnce (source : Source τ σ κ) (v w : World τ σ κ) : Prop where
  /-- The life goes from idle to running to stopped, or to stopped at once. -/
  life : Relation.ReflTransGen Lifecycle.Next v.state.lifecycle w.state.lifecycle
  final : v.state.lifecycle = .stopped → w.state.lifecycle = .stopped
  idle : w.state.lifecycle = .idle ↔ ∀ c ∈ w.state.calls, c.isOrder = false
  running : w.state.lifecycle = .running ↔
    ∃ l, w.state.loop = some l ∧ l.phase.isEnded = false
  /-- There is a loop if the first call that starts or stops it has started it. -/
  founded : w.state.loop.map Loop.interval = Call.founded? w.state.calls
  /-- No loop takes the place of another. -/
  same : ∀ l, v.state.loop = some l → ∃ phase, w.state.loop = some { l with phase }
  once : w.state.events.filterMap Event.started? = (w.state.loop.map Loop.interval).toList
  /-- A call to start creates a loop if it finds the keeper idle. -/
  starts : w.state.lifecycle = .idle → ∀ interval,
    (call source (.start interval) w).state.lifecycle = .running ∧
      (call source (.start interval) w).state.loop = some { interval }
  /-- Nothing else does. -/
  created : ∀ u l, Step source w u → w.state.loop = none → u.state.loop = some l →
    u = call source (.start l.interval) w ∧ w.state.lifecycle = .idle
  /-- A call to start that finds the keeper running or stopped is noted, and changes nothing. -/
  ignored : w.state.lifecycle ≠ .idle → ∀ interval,
    call source (.start interval) w = w.modify fun k =>
      { k with
        callers := k.callers ++ [⟨.start interval, some .done⟩]
        journal := k.journal ++ [.event (.startIgnored k.lifecycle)] }
  /-- If the idle keeper is stopped, no loop is ever created. -/
  retired : ∀ u, Step source w u → w.state.lifecycle = .idle → u.state.lifecycle = .stopped →
    ∀ x, Run source u x → x.state.loop = none

omit [Clock τ] in
/-- What is said of a loop that starts is said to a call to start. -/
theorem filterMap_notices (k : Keeper τ σ) :
    k.notices.filterMap Event.started? = k.events.filterMap Event.started? := by
  rw [Keeper.notices, List.filterMap_filter]
  refine List.filterMap_congr fun e _ => ?_
  cases e <;> rfl

/-- A keeper lives once: one loop at most is created, by the first call to start if that finds the
keeper idle, and the keeper is running until that loop has ended. -/
theorem lives_once (reached : Reachable source strict v) (run : Run source v w) :
    LivesOnce source v w := by
  have reached' := reached.run run
  have onward := reached.onward run
  have lived := reached'.steered.lived
  have hull : (helm w).hull.map Prod.fst = w.state.loop.map Loop.interval := by
    simp only [Helm.hull, Option.map_map]
    rfl
  obtain ⟨l, sound⟩ := reached'.sound
  refine { life := onward.life, final := ?final, idle := ?idle, running := ?running,
           founded := hull.symm.trans lived.founded, same := onward.loop, once := ?once,
           starts := ?starts, created := ?created, ignored := call_start_of_busy,
           retired := ?retired }
  case final =>
    intro stopped
    have life := onward.life
    rw [show (helm v).lifecycle = .stopped from stopped] at life
    exact Lifecycle.eq_of_stopped life
  case idle =>
    refine lived.idle.trans (List.find?_eq_none.trans ?_)
    simp only [Bool.not_eq_true]
    rfl
  case running =>
    refine lived.running.trans ?_
    simp only [Helm.hull, Option.map_eq_some_iff, Prod.mk.injEq]
    constructor
    · rintro ⟨interval, l, there, -, goes⟩
      exact ⟨l, there, goes⟩
    · rintro ⟨l, there, goes⟩
      exact ⟨l.interval, l, there, rfl, goes⟩
  case once =>
    rw [← filterMap_notices, ← hull]
    exact lived.started
  case starts =>
    intro idle interval
    rw [call_start_of_idle idle]
    exact ⟨rfl, rfl⟩
  case created =>
    intro u l step loopless there
    rcases helm_of_step step sound with ⟨c, rfl, order⟩ | moves
    · obtain ⟨rfl, idle⟩ := order.founds loopless there
      exact ⟨rfl, idle⟩
    · cases (moves.of_loopless loopless).1.symm.trans there
  case retired =>
    intro u step idle stopped x further
    have loopless := (lived.loop_of_idle idle).1
    have barren : u.state.loop = none := by
      rcases helm_of_step step sound with ⟨c, rfl, order⟩ | moves
      · exact order.retires loopless stopped
      · exact (moves.of_loopless loopless).1
    exact ((reached'.run ((Run.refl w).step step)).onward further).barren stopped barren

/-- A keeper is started twice and stopped; another is stopped and started then. -/
theorem lives_once_unsteady :
    let source : Source Int Outcome Unit := .answering Source.unsteady
    let started := settle source 20 <| call source (.start 5) (init true)
    let again := call source (.start 7) started
    let ended := advance source 9 20 <| call source .stop again
    let stopped := call source .stop (init true)
    let late := advance source 9 20 <| call source (.start 5) stopped
    LivesOnce source started ended ∧ LivesOnce source stopped late ∧
      started.state.lifecycle = .running ∧ again.state.lifecycle = .running ∧
      again.state.loop.map Loop.interval = some 5 ∧ ended.state.lifecycle = .stopped ∧
      ended.state.loop.map Loop.interval = some 5 ∧ stopped.state.lifecycle = .stopped ∧
      late.state.loop.isNone = true ∧ late.state.fetches = 0 := by
  intro source started again ended stopped late
  have begun : Reachable source true started := (run_call (.start 5) _).trans (run_settle 20 _)
  have onward : Run source started ended :=
    ((run_call (.start 7) _).trans (run_call .stop _)).trans (run_advance 9 20 _)
  have onward' : Run source stopped late := (run_call (.start 5) _).trans (run_advance 9 20 _)
  exact ⟨lives_once begun onward, lives_once (run_call .stop _) onward', by decide, by decide,
    by decide, by decide, by decide, by decide, by decide, by decide⟩

end World

end ApiCatalog
