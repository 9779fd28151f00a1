/-
# ApiCatalog.Proofs.Handover -- the lock goes on from attempt to attempt

The lock is handed to nobody.  Whoever releases it gives the head of the queue a
turn, and nothing but that turn takes the head from the queue.  So as long as the
lock is free and somebody waits for it, the turn of the first is in line
(`World.Handed`), whichever way the attempts before it have ended:

* most parts of a keeper leave the lock and the queue alone and only add to the
  line (`World.Spares`);
* whatever takes the lock or releases it leaves a world that is handed on
  (`handed_begin`, `handed_conclude`);
* so every step does (`handed_of_step`).

Hence nothing gets stuck (`refresh_handed_on`): where nothing can run without
time passing and no fetch is in flight, nobody waits for the lock.
-/
import ApiCatalog.Proofs.Serial
import ApiCatalog.Proofs.Settling

namespace ApiCatalog

set_option autoImplicit false

namespace Core

variable {τ σ κ : Type} {c d : Core τ σ} {l : Line τ σ}

/-- The first in the queue of a free lock is an attempt. -/
theorem Orderly.exists_at_head (orderly : c.Orderly l) (free : c.locked = false) {ticket : Nat}
    {rest : List Nat} (head : c.queue = ticket :: rest) : ∃ a, c.attempts[ticket]? = some a := by
  obtain ⟨a, waiting, line, rfl, -⟩ := orderly.at_head free head
  refine ⟨a, ?_⟩
  rw [orderly.attempts, line]
  simp [Line.attempts]

theorem Outlives.attempts (outlives : c.Outlives d) : d.attempts = c.attempts := by
  rcases outlives with rfl | rfl <;> rfl

/-- An attempt whose fetch has done something has started. -/
theorem isStarted_absorb {ticket : Nat} {a : Attempt τ σ} (there : c.attempts[ticket]? = some a)
    (owner : Owner) (began : τ) (p : Progress τ σ κ) :
    ((c.absorb ticket owner began p).attempts[ticket]?).any Attempt.isStarted = true := by
  simp only [absorb]
  split
  · simp [setStage_there there, Attempt.isStarted]
  · rw [conclude, attempts_goOn, settle, setStage_there (setStage_there there _)]
    rfl

end Core

namespace World

variable {τ σ κ : Type}

/-! ## Parts that leave the lock alone -/

/-- The lock and the queue are as they were, and the line has only got longer. -/
structure Spares (v w : World τ σ κ) : Prop where
  locked : w.state.locked = v.state.locked
  queue : w.state.queue = v.state.queue
  line : v.ready <+: w.ready

theorem Spares.refl (w : World τ σ κ) : Spares w w := ⟨rfl, rfl, List.prefix_rfl⟩

theorem Spares.trans {u v w : World τ σ κ} (first : Spares u v) (second : Spares v w) :
    Spares u w :=
  ⟨second.locked.trans first.locked, second.queue.trans first.queue,
    first.line.trans second.line⟩

theorem spares_modify {f : Keeper τ σ → Keeper τ σ} {w : World τ σ κ}
    (locked : (f w.state).locked = w.state.locked) (queue : (f w.state).queue = w.state.queue) :
    Spares w (w.modify f) := ⟨locked, queue, List.prefix_rfl⟩

theorem spares_wake (target : Target κ) (relays : Nat) (w : World τ σ κ) :
    Spares w (w.wake target relays) := ⟨rfl, rfl, List.prefix_append _ _⟩

theorem spares_wakeAll (targets : List (Target κ)) (relays : Nat) (w : World τ σ κ) :
    Spares w (w.wakeAll targets relays) := ⟨rfl, rfl, List.prefix_append _ _⟩

theorem spares_disarm [DecidableEq κ] (target : Target κ) (w : World τ σ κ) :
    Spares w (w.disarm target) := ⟨rfl, rfl, List.prefix_rfl⟩

theorem spares_note (notes : List (Note τ)) (w : World τ σ κ) : Spares w (note notes w) :=
  ⟨rfl, rfl, List.prefix_rfl⟩

theorem spares_say (e : Event τ) (w : World τ σ κ) : Spares w (say e w) := spares_note _ w

theorem spares_signalSyncWaiters (w : World τ σ κ) : Spares w (signalSyncWaiters w) :=
  spares_wakeAll _ _ w

theorem spares_endLoop (cancelled : Bool) (w : World τ σ κ) : Spares w (endLoop cancelled w) :=
  ((spares_modify rfl rfl).trans (spares_signalSyncWaiters _)).trans (spares_wakeAll _ _ _)

theorem spares_publish (snapshot : Snapshot τ) (w : World τ σ κ) : Spares w (publish snapshot w) :=
  (((spares_modify rfl rfl).trans (spares_signalSyncWaiters _)).trans
    (spares_modify rfl rfl)).trans (spares_say _ _)

theorem spares_judge (began : τ) (outcome : Outcome) (w : World τ σ κ) :
    Spares w (judge began outcome w).2 := by
  cases outcome with
  | error why =>
    simp only [judge]
    split
    · exact .refl w
    · exact (spares_modify rfl rfl).trans (spares_say _ _)
  | ok listings =>
    simp only [judge]
    have remarked := spares_note ((Snapshot.index w.state.strict listings).remarks.map .indexing) w
    split
    · exact remarked.trans (spares_publish _ _)
    · simp only
      split
      · exact remarked.trans (spares_modify rfl rfl)
      · exact remarked

theorem spares_answerStop (id : Nat) (cancelled : Bool) (w : World τ σ κ) :
    Spares w (answerStop id cancelled w) := by
  unfold answerStop
  split
  · exact spares_modify rfl rfl
  · exact (spares_say _ _).trans (spares_modify rfl rfl)

theorem spares_callerTurn [DecidableEq κ] (id : Nat) (w : World τ σ κ) :
    Spares w (callerTurn id w) := by
  unfold callerTurn
  split
  · exact (spares_disarm _ _).trans (spares_modify rfl rfl)
  · split
    · exact spares_answerStop _ _ _
    · exact .refl w
  · exact .refl w

theorem spares_startLoop (id : Nat) (interval : τ) (w : World τ σ κ) :
    Spares w (startLoop id interval w) := by
  unfold startLoop
  refine Spares.trans ?_ (spares_modify rfl rfl)
  split
  · exact ((spares_modify rfl rfl).trans (spares_wake _ _ _)).trans (spares_say _ _)
  · exact spares_say _ _

theorem spares_askToStop [DecidableEq κ] (id : Nat) (w : World τ σ κ) :
    Spares w (askToStop id w) := by
  unfold askToStop
  have asked : Spares w (w.modify fun k => { k with stopAsked := true }) := spares_modify rfl rfl
  refine asked.trans ?_
  dsimp only
  split
  · exact ((spares_modify rfl rfl).trans (spares_signalSyncWaiters _)).trans
      (spares_modify rfl rfl)
  · exact spares_answerStop _ _ _
  · exact ((spares_disarm _ _).trans (spares_modify rfl rfl)).trans (spares_wake _ _ _)
  · exact .refl _

section

variable [Clock τ]

theorem spares_arm (delay : τ) (target : Target κ) (w : World τ σ κ) :
    Spares w (w.arm delay target) := ⟨rfl, rfl, List.prefix_rfl⟩

theorem spares_follow {ω : Type} (lift : κ → Target κ) (p : Progress τ ω κ) (w : World τ σ κ) :
    Spares w (w.follow lift p) := by
  rw [Timeline.follow_eq]
  exact ⟨rfl, rfl, List.prefix_append _ _⟩

theorem spares_reach (moment : τ) (w : World τ σ κ) : Spares w (w.reach moment) := by
  unfold Timeline.reach
  split
  · exact ⟨rfl, rfl, List.prefix_rfl⟩
  · exact .refl w

theorem spares_ring (alarm : Alarm τ (Target κ)) (others : List (Alarm τ (Target κ)))
    (w : World τ σ κ) : Spares w (w.ring alarm others) := by
  have left : Spares w { w with alarms := others } := ⟨rfl, rfl, List.prefix_rfl⟩
  exact (left.trans (spares_reach _ _)).trans (spares_wake _ _ _)

theorem spares_waitForSync (id : Nat) (timeout : Option τ) (w : World τ σ κ) :
    Spares w (waitForSync id timeout w) := by
  unfold waitForSync
  split
  · exact spares_modify rfl rfl
  · have woken : Spares w
        (if w.state.stopSignal then w.wake (.caller id) signalRelays else w) := by
      split
      · exact spares_wake _ _ _
      · exact .refl w
    dsimp only
    split
    · exact woken.trans (spares_arm _ _ _)
    · exact woken

theorem spares_rest (interval began : τ) (w : World τ σ κ) :
    Spares w (rest interval began w) := by
  simp only [rest]
  split
  · split
    · exact spares_endLoop _ _
    · exact (spares_modify rfl rfl).trans (spares_arm _ _ _)
  · exact (spares_modify rfl rfl).trans (spares_wake _ _ _)

theorem spares_goOn (owner : Owner) (verdict : Verdict) (w : World τ σ κ) :
    Spares w (goOn owner verdict w) := by
  cases owner with
  | caller id => exact ⟨rfl, rfl, List.prefix_rfl⟩
  | loop =>
    simp only [goOn, afterLoopRefresh]
    split
    · split
      · exact spares_rest _ _ _
      · exact spares_rest _ _ _
      · exact spares_endLoop _ _
      · exact (spares_say _ _).trans (spares_rest _ _ _)
    · exact .refl w

end

/-! ## The turn of the first in the queue -/

/-- While the lock is free, the first in the queue has a turn in line. -/
def Handed (w : World τ σ κ) : Prop :=
  w.state.locked = false → ∀ ticket rest, w.state.queue = ticket :: rest →
    ⟨.attempt ticket, 0⟩ ∈ w.ready

theorem Handed.spares {v w : World τ σ κ} (handed : Handed v) (spares : Spares v w) :
    Handed w := by
  intro free ticket rest head
  rw [spares.locked] at free
  rw [spares.queue] at head
  exact spares.line.subset (handed free ticket rest head)

theorem handed_of_locked {w : World τ σ κ} (locked : w.state.locked = true) : Handed w := by
  intro free
  cases locked.symm.trans free

/-- Whoever releases the lock gives the first in the queue a turn. -/
theorem handed_release (w : World τ σ κ) : Handed (release w) := by
  intro free ticket rest head
  cases queue : w.state.queue with
  | nil => simp [release, Timeline.modify, queue] at head
  | cons first others =>
    simp only [release, Timeline.modify, queue, Timeline.wake] at head ⊢
    cases head
    simp

/-- A turn that is taken is missed only if it is that of the first in the queue. -/
theorem handed_of_perm {w : World τ σ κ} (handed : Handed w) {turn : Turn (Target κ)}
    {rest : List (Turn (Target κ))} (inLine : w.ready.Perm (turn :: rest))
    (other : w.state.locked = false → ∀ ticket others, w.state.queue = ticket :: others →
      turn ≠ ⟨.attempt ticket, 0⟩) :
    Handed ({ w with ready := rest } : World τ σ κ) := by
  intro free ticket others head
  have mem := inLine.mem_iff.1 (handed free ticket others head)
  rcases List.mem_cons.1 mem with same | later
  · exact absurd same.symm (other free ticket others head)
  · exact later

variable [Clock τ]

/-- However an attempt ends, the lock is handed on. -/
theorem handed_conclude (ticket : Nat) (owner : Owner) (began : τ) (outcome : Outcome)
    (w : World τ σ κ) : Handed (conclude ticket owner began outcome w) :=
  (handed_release _).spares (spares_goOn _ _ _)

theorem handed_absorb (ticket : Nat) (owner : Owner) (began : τ) (p : Progress τ σ κ)
    {w : World τ σ κ} (handed : Handed w) : Handed (absorb ticket owner began p w) := by
  unfold absorb
  dsimp only
  split
  · exact (handed.spares (spares_modify rfl rfl)).spares (spares_follow _ _ _)
  · exact handed_conclude _ _ _ _ _

/-- An attempt that takes the lock holds it, or has handed it on already. -/
theorem handed_begin (source : Source τ σ κ) (ticket : Nat) (owner : Owner) (w : World τ σ κ) :
    Handed (begin source ticket owner w) :=
  handed_absorb _ _ _ _ (handed_of_locked rfl)

theorem handed_arrive (source : Source τ σ κ) (owner : Owner) {w : World τ σ κ}
    (handed : Handed w) : Handed (arrive source owner w) := by
  simp only [arrive]
  split
  · exact handed_begin _ _ _ _
  · rename_i busy
    intro free ticket rest head
    -- whoever has come to a free lock and has to wait, waits behind another
    cases queue : w.state.queue with
    | nil =>
      have unlocked : w.state.locked = false := free
      simp [unlocked, queue] at busy
    | cons first others =>
      simp only [Timeline.modify, queue, List.cons_append] at head
      cases head
      exact handed free _ others queue

theorem handed_loopTurn (source : Source τ σ κ) {w : World τ σ κ} (handed : Handed w) :
    Handed (loopTurn source w) := by
  have tick : Handed (if w.state.stopAsked then endLoop false w
      else w.modify (·.setPhase (.refreshing w.now)) |> arrive source .loop) := by
    split
    · exact handed.spares (spares_endLoop _ _)
    · exact handed_arrive _ _ (handed.spares (spares_modify rfl rfl))
  unfold loopTurn
  split
  · exact tick
  · exact tick
  · exact handed

theorem handed_fetchTurn (source : Source τ σ κ) (ticket : Nat) (token : κ) {w : World τ σ κ}
    (handed : Handed w) : Handed (fetchTurn source ticket token w) := by
  unfold fetchTurn
  split
  · exact handed_absorb _ _ _ _ handed
  · exact handed

theorem handed_attemptTurn (source : Source τ σ κ) (ticket : Nat) {w : World τ σ κ}
    (handed : Handed w) : Handed (attemptTurn source ticket w) := by
  unfold attemptTurn
  split
  · split
    · exact handed_begin _ _ _ _
    · exact handed
  · exact handed

/-- The turn of the first in the queue of a free lock starts its fetch. -/
theorem attemptTurn_of_head (source : Source τ σ κ) {w : World τ σ κ} {ticket : Nat}
    {rest : List Nat} {a : Attempt τ σ} (free : w.state.locked = false)
    (head : w.state.queue = ticket :: rest) (there : w.state.attempts[ticket]? = some a) :
    attemptTurn source ticket w =
      begin source ticket a.owner (w.modify fun k => { k with queue := rest }) := by
  simp [attemptTurn, head, there, free]

variable [DecidableEq κ] {source : Source τ σ κ}

theorem handed_act (target : Target κ) {w : World τ σ κ} (handed : Handed w) :
    Handed (act source target w) := by
  cases target with
  | loop => exact handed_loopTurn source handed
  | attempt ticket => exact handed_attemptTurn source ticket handed
  | fetch ticket token => exact handed_fetchTurn source ticket token handed
  | caller id => exact handed.spares (spares_callerTurn id w)

theorem handed_runTurn (turn : Turn (Target κ)) {w : World τ σ κ} (handed : Handed w) :
    Handed (Timeline.runTurn (act source) turn w) := by
  obtain ⟨target, relays⟩ := turn
  cases relays with
  | zero => exact handed_act target handed
  | succ relays => exact handed.spares (spares_wake _ _ _)

theorem handed_call (c : Call τ) {w : World τ σ κ} (handed : Handed w) :
    Handed (call source c w) := by
  have called : Handed (w.modify fun k => { k with callers := k.callers ++ [{ call := c }] }) :=
    handed.spares (spares_modify rfl rfl)
  unfold call
  cases c with
  | refresh => exact handed_arrive source _ called
  | start interval => exact called.spares (spares_startLoop _ _ _)
  | stop => exact called.spares (spares_askToStop _ _)
  | waitForSync timeout => exact called.spares (spares_waitForSync _ _ _)

/-- Every step of a world whose attempts are in order hands the lock on. -/
theorem handed_of_step {v w : World τ σ κ} {l : Line τ σ} (orderly : (core v).Orderly l)
    (handed : Handed v) (step : Step source v w) : Handed w := by
  cases step with
  | call c => exact handed_call c handed
  | ring set => exact handed.spares (spares_ring _ _ _)
  | pass moment => exact handed.spares (spares_reach _ _)
  | @turn turn rest inLine =>
    by_cases first : v.state.locked = false ∧
        ∃ ticket others, v.state.queue = ticket :: others ∧ turn = ⟨.attempt ticket, 0⟩
    · obtain ⟨free, ticket, others, head, rfl⟩ := first
      obtain ⟨a, there⟩ := orderly.exists_at_head free head
      have begins := attemptTurn_of_head source (w := { v with ready := rest }) free head there
      simp only [Timeline.runTurn, act, begins]
      exact handed_begin _ _ _ _
    · have missed : Handed { v with ready := rest } := by
        refine handed_of_perm handed inLine fun free ticket others head same => ?_
        exact first ⟨free, ticket, others, head, same⟩
      exact handed_runTurn turn missed

/-- In every reachable world the first in the queue of a free lock has a turn in line. -/
theorem Reachable.handed {strict : Bool} {w : World τ σ κ} (reached : Reachable source strict w) :
    Handed w := by
  have both : Reachable source strict w ∧ Handed w := by
    refine Run.keeps (P := fun u => Reachable source strict u ∧ Handed u) ?_ reached ⟨.refl _, ?_⟩
    · rintro v u step ⟨reached, handed⟩
      obtain ⟨l, sound⟩ := reached.sound
      exact ⟨reached.run ((Run.refl v).step step), handed_of_step sound.kept.orderly handed step⟩
    · intro free ticket rest head
      cases head
  exact both.2

/-! ## The first in the queue gets its turn -/

/-- The lock is still free and the queue still has its head, and the line has only got longer. -/
structure Bides (ticket : Nat) (v w : World τ σ κ) : Prop where
  free : w.state.locked = false
  head : ∃ rest, w.state.queue = ticket :: rest
  line : v.ready <+: w.ready

section

variable {w : World τ σ κ} (free : w.state.locked = false)

include free

omit [Clock τ] [DecidableEq κ] in
theorem spares_release : Spares w (release w) := by
  have freed : Spares w (w.modify fun k => { k with locked := false }) :=
    ⟨free.symm, rfl, List.prefix_rfl⟩
  unfold release
  dsimp only
  split
  · exact freed
  · exact freed.trans (spares_wake _ _ _)

omit [DecidableEq κ] in
/-- Where the lock is free already, the end of a fetch is nothing to it. -/
theorem spares_conclude (ticket : Nat) (owner : Owner) (began : τ) (outcome : Outcome) :
    Spares w (conclude ticket owner began outcome w) := by
  have judged := (spares_note [.fetchEnded] w).trans (spares_judge began outcome _)
  simp only [conclude]
  refine Spares.trans (judged.trans (spares_modify ?_ ?_)) ((spares_release ?_).trans
    (spares_goOn _ _ _))
  · rfl
  · rfl
  · exact judged.locked.trans free

omit [DecidableEq κ] in
theorem spares_absorb (ticket : Nat) (owner : Owner) (began : τ) (p : Progress τ σ κ) :
    Spares w (absorb ticket owner began p w) := by
  have taken : Spares w (w.modify fun k =>
      (k.setStage ticket (.fetching began p.work)).note (p.notes.map .source)) :=
    spares_modify rfl rfl
  have followed := taken.trans (spares_follow (.fetch ticket) p _)
  unfold absorb
  dsimp only
  split
  · exact followed
  · exact followed.trans (spares_conclude (followed.locked.trans free) _ _ _ _)

omit [DecidableEq κ] in
theorem spares_fetchTurn (ticket : Nat) (token : κ) :
    Spares w (fetchTurn source ticket token w) := by
  unfold fetchTurn
  split
  · exact spares_absorb free _ _ _ _
  · exact .refl w

variable {ticket : Nat} (head : ∃ rest, w.state.queue = ticket :: rest)

include head

omit [Clock τ] [DecidableEq κ] in
theorem Bides.of_spares {v : World τ σ κ} (spares : Spares w v) : Bides ticket w v :=
  ⟨spares.locked.trans free, spares.queue ▸ head, spares.line⟩

omit [DecidableEq κ] in
/-- Whoever comes waits behind the others. -/
theorem bides_arrive (source : Source τ σ κ) (owner : Owner) :
    Bides ticket w (arrive source owner w) := by
  obtain ⟨rest, head⟩ := head
  simp only [arrive, head, List.isEmpty_cons, Bool.and_false, Bool.false_eq_true, if_false]
  exact ⟨free, ⟨rest ++ [w.state.attempts.length], by simp [Timeline.modify, head]⟩,
    List.prefix_rfl⟩

omit [DecidableEq κ] in
theorem bides_loopTurn : Bides ticket w (loopTurn source w) := by
  have tick : Bides ticket w (if w.state.stopAsked then endLoop false w
      else w.modify (·.setPhase (.refreshing w.now)) |> arrive source .loop) := by
    split
    · exact .of_spares free head (spares_endLoop _ _)
    · have bides := bides_arrive (w := w.modify (·.setPhase (.refreshing w.now))) free head source
        .loop
      exact ⟨bides.free, bides.head, bides.line⟩
  unfold loopTurn
  split
  · exact tick
  · exact tick
  · exact .of_spares free head (.refl w)

/-- A turn of anybody else leaves the first in the queue where it is. -/
theorem bides_runTurn {turn : Turn (Target κ)} (other : turn ≠ ⟨.attempt ticket, 0⟩) :
    Bides ticket w (Timeline.runTurn (act source) turn w) := by
  obtain ⟨target, relays⟩ := turn
  cases relays with
  | succ relays => exact .of_spares free head (spares_wake _ _ _)
  | zero =>
    cases target with
    | loop => exact bides_loopTurn free head
    | fetch number token => exact .of_spares free head (spares_fetchTurn free number token)
    | caller id => exact .of_spares free head (spares_callerTurn id w)
    | attempt number =>
      obtain ⟨rest, queue⟩ := head
      have behind : ticket ≠ number := by
        rintro rfl
        exact other rfl
      have waits : attemptTurn source number w = w := by
        simp only [attemptTurn, queue]
        split
        · rename_i same there
          cases same
          simp [behind]
        · rfl
      simp only [Timeline.runTurn, act, waits]
      exact .of_spares free ⟨rest, queue⟩ (.refl w)

end

omit [DecidableEq κ] in
/-- An attempt that takes the lock has started its fetch. -/
theorem isStarted_begin (source : Source τ σ κ) {ticket : Nat} {w : World τ σ κ}
    {a : Attempt τ σ} (there : w.state.attempts[ticket]? = some a) (owner : Owner) :
    ((begin source ticket owner w).state.attempts[ticket]?).any Attempt.isStarted = true := by
  have same : (begin source ticket owner w).state.attempts = _ :=
    (core_begin source ticket owner rfl).attempts
  rw [same]
  exact Core.isStarted_absorb (c := (core w).take w.state.queue) there _ _ _

theorem settle_of_ready (source : Source τ σ κ) {w : World τ σ κ} {turn : Turn (Target κ)}
    {rest : List (Turn (Target κ))} (line : w.ready = turn :: rest) (fuel : Nat) :
    settle source (fuel + 1) w =
      settle source fuel (Timeline.runTurn (act source) turn { w with ready := rest }) := by
  simp only [settle, Timeline.settle, line]

variable {strict : Bool} {w : World τ σ κ}

/-- The turn of the first in the queue of a free lock starts its fetch. -/
theorem isStarted_of_turn (reached : Reachable source strict w) (free : w.state.locked = false)
    {ticket : Nat} (head : ∃ others, w.state.queue = ticket :: others)
    (rest : List (Turn (Target κ))) :
    ((Timeline.runTurn (act source) ⟨.attempt ticket, 0⟩
      { w with ready := rest }).state.attempts[ticket]?).any Attempt.isStarted = true := by
  obtain ⟨others, head⟩ := head
  obtain ⟨l, sound⟩ := reached.sound
  obtain ⟨a, there⟩ := sound.kept.orderly.exists_at_head free head
  have begins := attemptTurn_of_head source (w := { w with ready := rest }) free head there
  simp only [Timeline.runTurn, act, begins]
  refine isStarted_begin source (a := a) ?_ a.owner
  exact there

/-- Where the lock is free, the first in the queue starts its fetch as soon as the line has come to
its turn. -/
theorem exists_started (reached : Reachable source strict w) (free : w.state.locked = false)
    {ticket : Nat} (head : ∃ others, w.state.queue = ticket :: others)
    {before after : List (Turn (Target κ))}
    (line : w.ready = before ++ ⟨.attempt ticket, 0⟩ :: after) :
    ∃ fuel ≤ before.length + 1,
      ((settle source fuel w).state.attempts[ticket]?).any Attempt.isStarted = true := by
  induction before generalizing w after with
  | nil =>
    refine ⟨1, Nat.le_refl _, ?_⟩
    rw [settle_of_ready source line]
    exact isStarted_of_turn reached free head after
  | cons turn before ih =>
    rw [List.cons_append] at line
    by_cases first : turn = ⟨.attempt ticket, 0⟩
    · refine ⟨1, by simp, ?_⟩
      rw [settle_of_ready source line, first]
      exact isStarted_of_turn reached free head _
    · -- the turn of another leaves the head of the queue waiting, and brings the line on
      let v : World τ σ κ := { w with ready := before ++ ⟨.attempt ticket, 0⟩ :: after }
      have waits : ∃ others, v.state.queue = ticket :: others := head
      have bides : Bides ticket v (Timeline.runTurn (act source) turn v) :=
        bides_runTurn (show v.state.locked = false from free) waits first
      have onward := reached.run (run_of_ready line (.refl (Timeline.runTurn (act source) turn v)))
      obtain ⟨more, grown⟩ := bides.line
      rw [List.append_assoc] at grown
      obtain ⟨fuel, enough, started⟩ := ih onward bides.free bides.head grown.symm
      refine ⟨fuel + 1, Nat.succ_le_succ enough, ?_⟩
      rwa [settle_of_ready source line]

/-! ## Nothing gets stuck -/

/-- The number of fetches in flight. -/
def inFlight (w : World τ σ κ) : Nat := (Report.Traffic.fetches w.state.journal).running

/-- Where nobody holds the lock or waits for it, a call to refresh starts its fetch. -/
theorem isStarted_call (free : w.state.locked = false) (empty : w.state.queue = []) :
    ((call source .refresh w).state.attempts[w.state.attempts.length]?).any
      Attempt.isStarted = true := by
  simp only [call, arrive, Timeline.modify, free, empty, List.isEmpty_nil, Bool.not_false,
    Bool.and_self, if_true]
  refine isStarted_begin source (a := ⟨.caller w.state.callers.length, w.now, .queued⟩) ?_ _
  simp

section

variable {l : Line τ σ} (sound : (core w).Sound source strict l)

include sound

omit [Clock τ] [DecidableEq κ] in
/-- The fetch in flight is the one of the attempt that holds the lock. -/
theorem inFlight_eq : inFlight w = l.current.toList.length := sound.kept.shown.running

omit [Clock τ] [DecidableEq κ] in
theorem locked_iff : w.state.locked = true ↔ inFlight w = 1 := by
  have locked : w.state.locked = l.current.isSome := sound.kept.orderly.locked
  rw [locked, inFlight_eq sound]
  cases l.current <;> simp

omit [Clock τ] [DecidableEq κ] in
theorem unlocked_iff : w.state.locked = false ↔ inFlight w = 0 := by
  have locked : w.state.locked = l.current.isSome := sound.kept.orderly.locked
  rw [locked, inFlight_eq sound]
  cases l.current <;> simp

omit [Clock τ] [DecidableEq κ] in
/-- Where nobody holds the lock or waits for it, every attempt has ended. -/
theorem isEnded_of_idle (free : w.state.locked = false) (empty : w.state.queue = []) :
    ∀ a ∈ w.state.attempts, a.isEnded = true := by
  have orderly := sound.kept.orderly
  have current : l.current = none := by
    rw [← Option.isNone_iff_eq_none, ← Option.not_isSome, ← orderly.locked]
    exact congrArg not free
  have waiting : l.waiting = [] := by
    have queue := orderly.queue.symm.trans empty
    rwa [List.range'_eq_nil_iff, List.length_eq_zero_iff] at queue
  intro a mem
  have attempts : w.state.attempts = l.attempts := orderly.attempts
  rw [attempts, Line.attempts, current, waiting, Option.toList_none, List.append_nil,
    List.append_nil] at mem
  exact orderly.ended a mem

omit [Clock τ] [DecidableEq κ] in
/-- Where every attempt has ended, every call to refresh is answered. -/
theorem answered_of_isEnded (ended : ∀ a ∈ w.state.attempts, a.isEnded = true) {id : Nat}
    {answer : Option Answer} (there : w.state.callers[id]? = some ⟨.refresh, answer⟩) :
    answer ≠ none := by
  obtain ⟨n, a, place, mine⟩ := exists_attempt sound.kept there
  have mem := List.mem_of_getElem? place
  have answered := isSome_answerOf sound.kept mem mine
  rw [ended a mem, Keeper.answerOf, there] at answered
  exact Option.isSome_iff_ne_none.1 answered

end

/-- Where nothing can run without time passing and no fetch is in flight, nobody waits for the lock,
and every attempt has ended. -/
theorem isEnded_of_quiet (reached : Reachable source strict w) (quiet : w.Quiet)
    (idle : inFlight w = 0) :
    w.state.queue = [] ∧ ∀ a ∈ w.state.attempts, a.isEnded = true := by
  obtain ⟨l, sound⟩ := reached.sound
  have free := (unlocked_iff sound).2 idle
  have empty : w.state.queue = [] := by
    cases queue : w.state.queue with
    | nil => rfl
    | cons ticket rest =>
      have turn := reached.handed free ticket rest queue
      rw [quiet.1] at turn
      cases turn
  exact ⟨empty, isEnded_of_idle sound free empty⟩

/-- The lock is held during a fetch and at no other time, and where nothing can run without time
passing, nobody waits for a lock that is free.  However an attempt has ended, the next one that
waits starts its fetch when the line has come to it, and so does a new one at once if nobody
waits. -/
theorem refresh_handed_on (reached : Reachable source strict w) :
    (w.state.locked = true ↔ inFlight w = 1) ∧ (w.state.locked = false ↔ inFlight w = 0) ∧
    (w.Quiet → inFlight w = 0 →
      w.state.queue = [] ∧ (∀ a ∈ w.state.attempts, a.isEnded = true) ∧
      (∀ (id : Nat) (answer : Option Answer),
        w.state.callers[id]? = some ⟨.refresh, answer⟩ → answer ≠ none) ∧
      ((call source .refresh w).state.attempts[w.state.attempts.length]?).any
        Attempt.isStarted = true) ∧
    (inFlight w = 0 → ∀ ticket rest, w.state.queue = ticket :: rest →
      ∃ fuel ≤ w.ready.length,
        ((settle source fuel w).state.attempts[ticket]?).any Attempt.isStarted = true) := by
  obtain ⟨l, sound⟩ := reached.sound
  refine ⟨locked_iff sound, unlocked_iff sound, fun quiet idle => ?_,
    fun idle ticket rest head => ?_⟩
  · obtain ⟨empty, ended⟩ := isEnded_of_quiet reached quiet idle
    exact ⟨empty, ended, fun id answer => answered_of_isEnded sound ended,
      isStarted_call ((unlocked_iff sound).2 idle) empty⟩
  · have free := (unlocked_iff sound).2 idle
    obtain ⟨before, after, line⟩ := List.append_of_mem (reached.handed free ticket rest head)
    obtain ⟨fuel, enough, started⟩ := exists_started reached free ⟨rest, head⟩ line
    exact ⟨fuel, by simp [line]; omega, started⟩

/-- Two calls to refresh, of which the first fails after two units: the moment at which its fetch
has ended and the second has not started yet, and the rest that follows. -/
theorem refresh_handed_on_unsteady :
    let source : Source Int Outcome Unit := .answering Source.unsteady
    let v := settle source 20 (call source .refresh (call source .refresh (init true)))
    let w := settle source 2 (v.reach 2)
    let rested := settle source 20 w
    Reachable source true w ∧ v.state.locked = true ∧ inFlight v = 1 ∧
      w.state.completed = 1 ∧ inFlight w = 0 ∧ w.state.queue = [1] ∧
      (∃ fuel ≤ w.ready.length,
        ((settle source fuel w).state.attempts[1]?).any Attempt.isStarted = true) ∧
      rested.Quiet ∧ inFlight rested = 0 ∧ ∀ a ∈ rested.state.attempts, a.isEnded = true := by
  intro source v w rested
  have begun : Reachable source true v :=
    ((run_call .refresh _).trans (run_call .refresh _)).trans (run_settle 20 _)
  have reached : Reachable source true w :=
    begun.run (((Run.refl v).step (.pass v 2)).trans (run_settle 2 _))
  have later : Reachable source true rested := reached.run (run_settle 20 w)
  have locked : v.state.locked = true := by decide
  have running : inFlight v = 1 := by decide
  have completed : w.state.completed = 1 := by decide
  have idle : inFlight w = 0 := by decide
  have head : w.state.queue = [1] := by decide
  have line : rested.ready.isEmpty = true := by decide
  have alarms : rested.alarms.isEmpty = true := by decide
  have settled : inFlight rested = 0 := by decide
  have quiet : rested.Quiet := by
    refine ⟨List.isEmpty_iff.1 line, ?_⟩
    rw [List.isEmpty_iff.1 alarms]
    simp
  have next := (refresh_handed_on reached).2.2.2 idle 1 [] head
  have ended := ((refresh_handed_on later).2.2.1 quiet settled).2.1
  exact ⟨reached, locked, running, completed, idle, head, next, quiet, settled, ended⟩

end World

end ApiCatalog
