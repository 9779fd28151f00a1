/-
# ApiCatalog.Proofs.Deeds -- every step is a few deeds of the desk

Each part of a step is followed on the desk, as it is on the core:

* notes, the lock, the attempts and the turns of others leave it alone;
* the end of an attempt publishes, answers its caller or lets the loop go on
  (`deeds_conclude`); the caller of an attempt has called for a refresh
  (`Desk.Rightful`);
* a refresh that the loop asks for is a `tick` (`deeds_loopTurn`);
* the turn of a call that waits for the first snapshot is `Desk.Step.served`.

`desk_of_step` puts the parts together.  What deeds and such turns keep, steps
keep.
-/
import ApiCatalog.Proofs.Desk
import ApiCatalog.Proofs.Outcomes
import ApiCatalog.Proofs.Settling

namespace ApiCatalog

set_option autoImplicit false

namespace World

variable {τ σ κ : Type}

/-! ## Parts that leave the desk alone -/

/-- How far an attempt has come does not change who asked for it. -/
theorem countP_isOfLoop_modify (attempts : List (Attempt τ σ)) (ticket : Nat)
    (stage : AttemptStage τ σ) :
    (attempts.modify ticket fun a => { a with stage }).countP Attempt.isOfLoop =
      attempts.countP Attempt.isOfLoop := by
  by_cases inside : ticket < attempts.length
  · obtain ⟨before, a, after, split, -, modified⟩ :=
      List.exists_of_modify (fun a : Attempt τ σ => { a with stage }) inside
    rw [modified, split, List.countP_append, List.countP_append, List.countP_cons,
      List.countP_cons]
    rfl
  · rw [List.modify_eq_self (by omega)]

theorem desk_setStage (ticket : Nat) (stage : AttemptStage τ σ) (w : World τ σ κ) :
    desk (w.modify (·.setStage ticket stage)) = desk w := by
  simp only [desk, Timeline.modify, Keeper.setStage, countP_isOfLoop_modify]
  rfl

theorem desk_release (w : World τ σ κ) : desk (release w) = desk w := by
  unfold release
  dsimp only
  split
  · rfl
  · simp [desk, Timeline.wake, Timeline.modify, Target.caller?, Keeper.isSynced]

/-- The turn of somebody who is no caller is nothing to the desk. -/
theorem desk_wake_other {target : Target κ} (other : target.caller? = none) (relays : Nat)
    (w : World τ σ κ) : desk (w.wake target relays) = desk w := by
  simp [desk, Timeline.wake, other]

theorem desk_arm_other [Clock τ] {target : Target κ} (other : target.caller? = none) (delay : τ)
    (w : World τ σ κ) : desk (w.arm delay target) = desk w := by
  simp [desk, Timeline.arm, other]

theorem desk_disarm_other [DecidableEq κ] {target : Target κ} (other : target.caller? = none)
    (w : World τ σ κ) : desk (w.disarm target) = desk w := by
  have same := Timeline.filterMap_disarm target
    (fun alarm => alarm.target.caller?.map fun id => (alarm.due, id)) (fun _ => by simp [other]) w
  simp only [desk, same]
  rfl

theorem desk_follow [Clock τ] (ticket : Nat) (p : Progress τ σ κ) (w : World τ σ κ) :
    desk (w.follow (.fetch ticket) p) = desk w := by
  rw [Timeline.follow_eq]
  simp [desk, Target.caller?, List.filterMap_append, List.filterMap_map]

/-! ## The turns and the alarms of calls -/

theorem desk_wake_caller (id relays : Nat) (w : World τ σ κ) :
    desk (w.wake (.caller id) relays) =
      { desk w with turns := (desk w).turns + ([id] : List Nat) } := by
  simp only [desk, Timeline.wake, List.filterMap_append, List.filterMap_cons, List.filterMap_nil,
    Target.caller?, ← Multiset.coe_add]

theorem desk_wakeAll (sort : Call τ → Bool) (relays : Nat) (w : World τ σ κ) :
    desk (w.wakeAll ((w.state.pending sort).map .caller) relays) = (desk w).wakeAll sort := by
  have turns : (((w.state.pending sort).map Target.caller).map fun target : Target κ =>
      (⟨target, relays⟩ : Turn (Target κ))).filterMap (fun turn => turn.target.caller?) =
      w.state.pending sort := by
    simp [List.filterMap_map, Target.caller?, Function.comp_def]
  simp only [desk, Timeline.wakeAll, List.filterMap_append, turns, ← Multiset.coe_add]
  rfl

theorem desk_signalSyncWaiters (w : World τ σ κ) :
    desk (signalSyncWaiters w) = (desk w).wakeAll Call.isSyncWait := desk_wakeAll _ _ w

theorem desk_arm_caller [Clock τ] (id : Nat) (span : τ) (w : World τ σ κ) :
    desk (w.arm span (.caller id)) =
      { desk w with
        alarms := (desk w).alarms + ([((desk w).now + span, id)] : List (τ × Nat)) } := by
  simp only [desk, Timeline.arm, List.filterMap_append, List.filterMap_cons, List.filterMap_nil,
    Target.caller?, Option.map_some, ← Multiset.coe_add]

theorem desk_disarm_caller [DecidableEq κ] (id : Nat) (w : World τ σ κ) :
    desk (w.disarm (.caller id)) =
      { desk w with alarms := (desk w).alarms.filter fun alarm => alarm.2 ≠ id } := by
  have same : (w.alarms.filter fun alarm => alarm.target ≠ .caller id).filterMap
      (fun alarm => alarm.target.caller?.map fun id => (alarm.due, id)) =
      (w.alarms.filterMap fun alarm => alarm.target.caller?.map fun id => (alarm.due, id)).filter
        fun alarm => alarm.2 ≠ id := by
    rw [List.filterMap_filter, List.filter_filterMap]
    refine List.filterMap_congr fun alarm _ => ?_
    obtain ⟨due, target⟩ := alarm
    cases target with
    | caller number => by_cases mine : number = id <;> simp [mine, Target.caller?, Option.filter]
    | _ => simp [Target.caller?]
  simp only [desk, Timeline.disarm, same]
  rfl

/-! ## The loop -/

theorem desk_setPhase {l : Loop τ} {w : World τ σ κ} (there : w.state.loop = some l)
    (phase : LoopPhase τ) :
    desk (w.modify (·.setPhase phase)) = { desk w with loop := some { l with phase } } := by
  simp only [desk, Timeline.modify, Keeper.setPhase, there]
  rfl

section

variable [Clock τ] {l : Loop τ} {w : World τ σ κ} (there : w.state.loop = some l)
  (running : l.phase.isEnded = false)

include there running

theorem deeds_endLoop (cancelled : Bool) : (desk w).Deeds (desk (endLoop cancelled w)) := by
  have ended : desk (w.modify fun k =>
      { k.setPhase (.ended cancelled) with lifecycle := .stopped, stopSignal := true }) =
      { desk w with
        loop := some { l with phase := .ended cancelled }
        lifecycle := .stopped
        stopSignal := true } := by
    simp only [desk, Timeline.modify, Keeper.setPhase, there]
    rfl
  have same : desk (endLoop cancelled w) = _ :=
    (desk_wakeAll Call.isStop 0 _).trans (congrArg _ ((desk_signalSyncWaiters _).trans
      (congrArg _ ended)))
  rw [same]
  exact .single (.endLoop there running cancelled)

theorem deeds_setPhase {phase : LoopPhase τ} (goes : phase.isEnded = false) :
    (desk w).Deeds (desk (w.modify (·.setPhase phase))) := by
  rw [desk_setPhase there]
  exact .single (.rest there running goes)

theorem deeds_rest (interval began : τ) : (desk w).Deeds (desk (rest interval began w)) := by
  simp only [rest]
  split
  · split
    · exact deeds_endLoop there running false
    · rw [desk_arm_other rfl]
      exact deeds_setPhase there running rfl
  · rw [desk_wake_other rfl]
    exact deeds_setPhase there running rfl

end

variable [Clock τ]

theorem deeds_afterLoopRefresh (verdict : Verdict) (w : World τ σ κ) :
    (desk w).Deeds (desk (afterLoopRefresh verdict w)) := by
  unfold afterLoopRefresh
  split
  · rename_i interval began loop
    split
    · exact deeds_rest loop rfl interval began
    · exact deeds_rest loop rfl interval began
    · exact deeds_endLoop loop rfl true
    · rename_i why other
      exact deeds_rest (w := say _ w) loop rfl interval began
  · exact .refl

/-! ## The end of an attempt -/

theorem deeds_goOn {owner : Owner} {w : World τ σ κ} (rightful : (desk w).Rightful owner)
    (verdict : Verdict) : (desk w).Deeds (desk (goOn owner verdict w)) := by
  cases owner with
  | loop => exact deeds_afterLoopRefresh verdict w
  | caller id =>
    obtain ⟨answer, there⟩ := rightful id rfl
    exact .single (.reply there ⟨rfl, rfl⟩ (answerOf verdict))

omit [Clock τ] in
theorem desk_publish (snapshot : Snapshot τ) (w : World τ σ κ) :
    desk (publish snapshot w) =
      Desk.wakeAll Call.isSyncWait { desk w with syncSignal := true, synced := true } :=
  desk_signalSyncWaiters
    (w.modify fun k => { k with snapshot := some snapshot, syncSignal := true })

theorem deeds_judge (began : τ) (outcome : Outcome) (w : World τ σ κ) :
    (desk w).Deeds (desk (judge began outcome w).2) := by
  cases outcome with
  | error why =>
    simp only [judge]
    split <;> exact .refl
  | ok listings =>
    simp only [judge]
    split
    · rw [desk_publish]
      exact .single (.publish (desk w))
    · split <;> exact .refl

theorem deeds_conclude (ticket : Nat) {owner : Owner} (began : τ) (outcome : Outcome)
    {w : World τ σ κ} (rightful : (desk w).Rightful owner) :
    (desk w).Deeds (desk (conclude ticket owner began outcome w)) := by
  have judged : (desk w).Deeds _ := deeds_judge began outcome (note [.fetchEnded] w)
  simp only [conclude]
  generalize judge began outcome (note [.fetchEnded] w) = judgement at judged ⊢
  obtain ⟨verdict, v⟩ := judgement
  have settled : desk (release (v.modify fun k =>
      { k.setStage ticket (.ended began v.now outcome verdict) with
        meters := { k.meters with durations := k.meters.durations ++ [v.now - began] } })) =
      desk v :=
    (desk_release _).trans (desk_setStage ticket (.ended began v.now outcome verdict) v)
  refine judged.trans ?_
  rw [← settled] at judged ⊢
  exact deeds_goOn (rightful.deeds judged) verdict

/-! ## The course of an attempt -/

theorem deeds_absorb (ticket : Nat) {owner : Owner} (began : τ) (p : Progress τ σ κ)
    {w : World τ σ κ} (rightful : (desk w).Rightful owner) :
    (desk w).Deeds (desk (absorb ticket owner began p w)) := by
  have taken : desk ((w.modify fun k =>
      (k.setStage ticket (.fetching began p.work)).note (p.notes.map .source)).follow
        (.fetch ticket) p) = desk w :=
    (desk_follow ticket p _).trans (desk_setStage ticket (.fetching began p.work) w)
  unfold absorb
  dsimp only
  split
  · rw [taken]
    exact .refl
  · rw [← taken] at rightful ⊢
    exact deeds_conclude ticket began _ rightful

theorem deeds_begin (source : Source τ σ κ) (ticket : Nat) {owner : Owner} {w : World τ σ κ}
    (rightful : (desk w).Rightful owner) : (desk w).Deeds (desk (begin source ticket owner w)) :=
  deeds_absorb ticket w.now _ (w := note [.fetchStarted] (say .refreshStarted
    (w.modify fun k => { k with locked := true }))) rightful

/-- An attempt that has come joins the queue, or starts at once. -/
theorem deeds_arrive (source : Source τ σ κ) {owner : Owner} {w : World τ σ κ}
    (rightful : (desk w).Rightful owner) :
    (desk (w.modify fun k =>
      { k with attempts := k.attempts ++ [{ owner, arrived := w.now }] })).Deeds
      (desk (arrive source owner w)) := by
  simp only [arrive]
  split
  · exact deeds_begin source _ (w := w.modify fun k =>
      { k with attempts := k.attempts ++ [{ owner, arrived := w.now }] }) rightful
  · exact .refl

/-- A refresh that a caller asks for is not one of the loop. -/
theorem deeds_arrive_caller (source : Source τ σ κ) {id : Nat} {w : World τ σ κ}
    (rightful : (desk w).Rightful (.caller id)) :
    (desk w).Deeds (desk (arrive source (.caller id) w)) := by
  have arrived := deeds_arrive source rightful
  have same : desk (w.modify fun k =>
      { k with attempts := k.attempts ++ [{ owner := .caller id, arrived := w.now }] }) =
      desk w := by
    simp [desk, Timeline.modify, Attempt.isOfLoop, Keeper.isSynced]
  rwa [same] at arrived

/-- A loop that goes on asks for a refresh, or ends if it has been asked to. -/
theorem deeds_tick (source : Source τ σ κ) {l : Loop τ} {w : World τ σ κ}
    (there : w.state.loop = some l) (running : l.phase.isEnded = false) :
    (desk w).Deeds (desk (if w.state.stopAsked then endLoop false w
      else w.modify (·.setPhase (.refreshing w.now)) |> arrive source .loop)) := by
  split
  · exact deeds_endLoop there running false
  · rename_i unasked
    have arrived := deeds_arrive source (w := w.modify (·.setPhase (.refreshing w.now)))
      (Desk.rightful_loop _)
    have asked : desk ((w.modify (·.setPhase (.refreshing w.now))).modify fun k =>
        { k with attempts := k.attempts ++ [{ owner := .loop, arrived := w.now }] }) =
        { desk w with
          loop := some { l with phase := .refreshing w.now }
          loopAttempts := (desk w).loopAttempts + 1 } := by
      simp [desk, Timeline.modify, Keeper.setPhase, there, Attempt.isOfLoop, Keeper.isSynced]
    have ticked : (desk w).Deed _ := .tick there running (Bool.eq_false_iff.2 unasked)
    exact .head (asked ▸ ticked) arrived

theorem deeds_loopTurn (source : Source τ σ κ) (w : World τ σ κ) :
    (desk w).Deeds (desk (loopTurn source w)) := by
  unfold loopTurn
  split
  · rename_i interval loop
    exact deeds_tick source loop rfl
  · rename_i interval loop
    exact deeds_tick source loop rfl
  · exact .refl

/-- Whoever has asked for a refresh is the loop, or a call to refresh. -/
def Manned (w : World τ σ κ) : Prop := ∀ a ∈ w.state.attempts, (desk w).Rightful a.owner

theorem deeds_attemptTurn (source : Source τ σ κ) (ticket : Nat) {w : World τ σ κ}
    (manned : Manned w) : (desk w).Deeds (desk (attemptTurn source ticket w)) := by
  unfold attemptTurn
  split
  · rename_i head rest attempt queue there
    split
    · exact deeds_begin source ticket (w := w.modify fun k => { k with queue := rest })
        (manned attempt (List.mem_of_getElem? there))
    · exact .refl
  · exact .refl

theorem deeds_fetchTurn (source : Source τ σ κ) (ticket : Nat) (token : κ) {w : World τ σ κ}
    (manned : Manned w) : (desk w).Deeds (desk (fetchTurn source ticket token w)) := by
  unfold fetchTurn
  split
  · rename_i owner arrived began work there
    exact deeds_absorb ticket began _ (manned _ (List.mem_of_getElem? there))
  · exact .refl

/-! ## Turns of calls -/

omit [Clock τ] in
theorem desk_answerStop (id : Nat) (cancelled : Bool) (w : World τ σ κ) :
    desk (answerStop id cancelled w) =
      (desk w).answer id (if cancelled then .failed .cancelled else .done) := by
  unfold answerStop
  split <;> rfl

/-- After the end of the loop a call to stop is answered. -/
theorem deeds_answerStop {id : Nat} {w : World τ σ κ}
    (there : w.state.callers[id]? = some ⟨.stop, none⟩) {interval : τ} {cancelled : Bool}
    (ended : w.state.loop = some ⟨interval, .ended cancelled⟩) :
    (desk w).Deeds (desk (answerStop id cancelled w)) := by
  rw [desk_answerStop]
  refine .single (.stop there ?_)
  simp [Desk.stopAnswer?, desk, ended]

/-- The turn of a call that does not wait for the first snapshot. -/
theorem deeds_callerTurn [DecidableEq κ] {id : Nat} {w : World τ σ κ}
    (other : ∀ timeout, w.state.callers[id]? ≠ some ⟨.waitForSync timeout, none⟩) :
    (desk w).Deeds (desk (callerTurn id w)) := by
  unfold callerTurn
  split
  · rename_i timeout there
    exact absurd there (other timeout)
  · rename_i there
    split
    · rename_i interval cancelled ended
      exact deeds_answerStop there ended
    · exact .refl
  · exact .refl

omit [Clock τ] in
/-- The turn of a call that waits for the first snapshot. -/
theorem desk_callerTurn [DecidableEq κ] {id : Nat} {timeout : Option τ} {w : World τ σ κ}
    (there : w.state.callers[id]? = some ⟨.waitForSync timeout, none⟩) :
    desk (callerTurn id w) = Desk.answer id (.truth (desk w).syncSignal)
      { desk w with alarms := (desk w).alarms.filter fun alarm => alarm.2 ≠ id } := by
  simp only [callerTurn, there]
  rw [← desk_disarm_caller]
  rfl

/-! ## Calls -/

theorem deeds_startLoop {id : Nat} {interval : τ} {w : World τ σ κ}
    (there : w.state.callers[id]? = some ⟨.start interval, none⟩) :
    (desk w).Deeds (desk (startLoop id interval w)) := by
  unfold startLoop
  split
  · rename_i idle
    have founded : desk (say (.started interval) ((w.modify fun k =>
        { k with lifecycle := .running, loop := some { interval } }).wake .loop 0)) =
        { desk w with lifecycle := .running, loop := some { interval } } :=
      desk_wake_other (show (Target.loop : Target κ).caller? = none from rfl) 0
        (w.modify fun k => { k with lifecycle := .running, loop := some { interval } })
    have found : (desk w).Deed _ := .found idle interval
    rw [← founded] at found
    exact .tail (.single found) (.reply there ⟨rfl, rfl⟩ .done)
  · exact .single (.reply there ⟨rfl, rfl⟩ .done)

/-- Without a loop the keeper is stopped at once. -/
theorem deeds_retire {id : Nat} {w : World τ σ κ}
    (there : w.state.callers[id]? = some ⟨.stop, none⟩) (none : w.state.loop = none) :
    (desk w).Deeds (desk ((signalSyncWaiters (w.modify fun k =>
      { k with lifecycle := .stopped, stopSignal := true })).modify (·.answer id .done))) := by
  have retired : desk (signalSyncWaiters (w.modify fun k =>
      { k with lifecycle := .stopped, stopSignal := true })) =
      Desk.wakeAll Call.isSyncWait
        { desk w with lifecycle := .stopped, stopSignal := true } := desk_signalSyncWaiters _
  have retire : (desk w).Deed _ := .retire none
  rw [← retired] at retire
  refine .tail (.single retire) (.stop there ?_)
  rw [retired]
  simp [Desk.stopAnswer?, Desk.wakeAll, desk, none]

theorem deeds_askToStop [DecidableEq κ] {id : Nat} {w : World τ σ κ}
    (there : w.state.callers[id]? = some ⟨.stop, none⟩) :
    (desk w).Deeds (desk (askToStop id w)) := by
  refine .head (.askStop (desk w)) ?_
  let asked : World τ σ κ := w.modify fun k => { k with stopAsked := true }
  unfold askToStop
  dsimp only
  split
  · rename_i loop
    exact deeds_retire (w := asked) there loop
  · rename_i interval cancelled ended
    exact deeds_answerStop (w := asked) there ended
  · rename_i interval loop
    rw [desk_wake_other rfl]
    have goes : (LoopPhase.pending : LoopPhase τ).isEnded = false := rfl
    have roused := deeds_setPhase (w := asked.disarm .loop) loop rfl goes
    rwa [desk_disarm_other rfl] at roused
  · exact .refl

section

variable {timeout : Option τ} {v w : World τ σ κ} (called : v = w.modify fun k =>
  { k with callers := k.callers ++ [{ call := .waitForSync timeout }] })

include called

/-- With a snapshot a call to wait for the first one is answered at once. -/
theorem desk_waitForSync_of_synced (signalled : w.state.syncSignal = true) :
    desk (waitForSync w.state.callers.length timeout v) =
      { desk w with
        callers := (desk w).callers ++ [⟨.waitForSync timeout, some (.truth true)⟩] } := by
  subst called
  simp [waitForSync, signalled, desk, Timeline.modify, Keeper.answer, Keeper.isSynced,
    Core.modify_after]

/-- Without a snapshot it takes its place. -/
theorem desk_waitForSync (unsignalled : w.state.syncSignal = false) :
    desk (waitForSync w.state.callers.length timeout v) = (desk w).wait timeout := by
  have unset : ¬ v.state.syncSignal = true := by
    subst called
    exact Bool.eq_false_iff.1 unsignalled
  have placed : desk v =
      { desk w with callers := (desk w).callers ++ [⟨.waitForSync timeout, none⟩] } := by
    subst called
    rfl
  have woken : desk (if v.state.stopSignal then
      v.wake (.caller w.state.callers.length) signalRelays else v) =
      { desk w with
        callers := (desk w).callers ++ [⟨.waitForSync timeout, none⟩]
        turns := (desk w).turns +
          (if (desk w).stopSignal then [(desk w).callers.length] else [] : List Nat) } := by
    have same : v.state.stopSignal = (desk w).stopSignal := by rw [called]; rfl
    rw [same]
    split
    · rw [desk_wake_caller, placed]
      rfl
    · rw [placed, Multiset.coe_nil, Multiset.add_zero]
  unfold waitForSync
  rw [if_neg unset]
  cases timeout with
  | none =>
    refine woken.trans ?_
    simp [Desk.wait]
  | some span =>
    dsimp only
    rw [desk_arm_caller, woken]
    rfl

theorem deeds_waitForSync :
    (desk w).Deeds (desk (waitForSync w.state.callers.length timeout v)) := by
  cases signal : w.state.syncSignal with
  | true =>
    rw [desk_waitForSync_of_synced called signal]
    exact .single (.synced timeout signal)
  | false =>
    rw [desk_waitForSync called signal]
    exact .single (.wait timeout signal)

end

theorem deeds_call [DecidableEq κ] (source : Source τ σ κ) (c : Call τ) (w : World τ σ κ) :
    (desk w).Deeds (desk (call source c w)) := by
  let v : World τ σ κ := w.modify fun k => { k with callers := k.callers ++ [{ call := c }] }
  have there : v.state.callers[w.state.callers.length]? = some { call := c } := by
    simp [v, Timeline.modify]
  have made : c.isSyncWait = false → (desk w).Deed (desk v) := .call
  unfold call
  cases c with
  | refresh =>
    refine .head (made rfl) (deeds_arrive_caller source ?_)
    rintro id ⟨⟩
    exact ⟨none, there⟩
  | start interval => exact .head (made rfl) (deeds_startLoop there)
  | stop => exact .head (made rfl) (deeds_askToStop there)
  | waitForSync timeout => exact deeds_waitForSync rfl

/-! ## Time -/

theorem deeds_reach (moment : τ) (w : World τ σ κ) :
    (desk w).Deeds (desk (w.reach moment)) := by
  unfold Timeline.reach
  split
  · rename_i later
    exact .single (.pass later)
  · exact .refl

/-- An alarm that goes off gives a turn to its caller, or to somebody else. -/
theorem deeds_ring {alarm : Alarm τ (Target κ)} {others : List (Alarm τ (Target κ))}
    {w : World τ σ κ} (set : w.alarms.Perm (alarm :: others)) :
    (desk w).Deeds (desk (w.ring alarm others)) := by
  obtain ⟨due, target⟩ := alarm
  have left : (desk w).alarms = ↑((⟨due, target⟩ :: others).filterMap fun alarm =>
      alarm.target.caller?.map fun id => (alarm.due, id)) :=
    Multiset.coe_eq_coe.2 (set.filterMap _)
  have reached : desk (({ w with alarms := others } : World τ σ κ).reach due) =
      { desk w with
        now := if w.now < due then due else w.now
        alarms := (desk { w with alarms := others }).alarms } := by
    unfold Timeline.reach
    split <;> rfl
  cases caller : target.caller? with
  | none =>
    have same : desk { w with alarms := others } = desk w := by
      have alarms : (desk { w with alarms := others }).alarms = (desk w).alarms := by
        rw [left]
        simp [desk, caller]
      simp only [desk] at alarms ⊢
      rw [alarms]
    rw [Timeline.ring, desk_wake_other caller, ← same]
    exact deeds_reach due _
  | some id =>
    have mine : target = .caller id := by
      cases target <;> simp [Target.caller?] at caller
      rw [caller]
    subst mine
    have alarms : (desk w).alarms = (due, id) ::ₘ (desk { w with alarms := others }).alarms := left
    have ring : (desk w).Deed _ := .ring alarms
    rw [Timeline.ring, desk_wake_caller, reached]
    exact .single ring

/-! ## Steps -/

variable [DecidableEq κ] {source : Source τ σ κ}

/-- The turn of somebody who is no caller. -/
theorem deeds_act_other {target : Target κ} (other : target.caller? = none) {w : World τ σ κ}
    (manned : Manned w) : (desk w).Deeds (desk (act source target w)) := by
  cases target with
  | loop => exact deeds_loopTurn source w
  | attempt ticket => exact deeds_attemptTurn source ticket manned
  | fetch ticket token => exact deeds_fetchTurn source ticket token manned
  | caller id => cases other

/-- A turn of a call is that of one that waits for the first snapshot, or a few deeds. -/
theorem desk_callTurn {id : Nat} {rest : List (Turn (Target κ))} {w : World τ σ κ}
    (turns : (desk w).turns = id ::ₘ (desk { w with ready := rest }).turns) :
    (desk w).Step (desk (callerTurn id { w with ready := rest })) := by
  by_cases waits : ∃ timeout, w.state.callers[id]? = some ⟨.waitForSync timeout, none⟩
  · obtain ⟨timeout, there⟩ := waits
    have served : (desk w).Step _ := .served turns there
    rw [desk_callerTurn (w := { w with ready := rest }) there]
    exact served
  · rw [not_exists] at waits
    have drop : (desk w).Deed _ := .drop turns waits
    exact .deeds (.head drop (deeds_callerTurn (w := { w with ready := rest }) waits))

theorem desk_runTurn {turn : Turn (Target κ)} {rest : List (Turn (Target κ))} {w : World τ σ κ}
    (inLine : w.ready.Perm (turn :: rest)) (manned : Manned w) :
    (desk w).Step (desk (Timeline.runTurn (act source) turn { w with ready := rest })) := by
  obtain ⟨target, relays⟩ := turn
  let left : World τ σ κ := { w with ready := rest }
  have turns : (desk w).turns = ↑((⟨target, relays⟩ :: rest).filterMap fun turn =>
      turn.target.caller?) := Multiset.coe_eq_coe.2 (inLine.filterMap _)
  cases relays with
  | succ relays =>
    -- the turn goes to the end of the line
    have last : (desk (left.wake target relays)).turns = (desk w).turns := by
      rw [turns]
      exact Multiset.coe_eq_coe.2 (List.perm_append_comm.filterMap _)
    have same : desk (left.wake target relays) = desk w := by
      simp only [desk] at last ⊢
      rw [← last]
      rfl
    exact .deeds (same ▸ .refl)
  | zero =>
    cases caller : target.caller? with
    | none =>
      have same : desk left = desk w := by
        have none : (desk left).turns = (desk w).turns := by
          rw [turns]
          simp [desk, left, caller]
        simp only [desk] at none ⊢
        rw [← none]
      exact .deeds (same ▸ deeds_act_other caller (w := left) manned)
    | some id =>
      have mine : target = .caller id := by
        cases target <;> simp [Target.caller?] at caller
        rw [caller]
      subst mine
      exact desk_callTurn turns

/-- Every step is a few deeds of the desk, or the turn of a call that waits for the first
snapshot. -/
theorem desk_of_step {v w : World τ σ κ} (manned : Manned v) (step : Step source v w) :
    (desk v).Step (desk w) := by
  cases step with
  | call c => exact .deeds (deeds_call source c v)
  | turn inLine => exact desk_runTurn inLine manned
  | ring set => exact .deeds (deeds_ring set)
  | pass moment => exact .deeds (deeds_reach moment v)

/-- Those who have asked for a refresh in a reachable world are the loop and calls to refresh. -/
theorem Reachable.manned {strict : Bool} {w : World τ σ κ} (reached : Reachable source strict w) :
    Manned w := by
  obtain ⟨l, sound⟩ := reached.sound
  intro a made id mine
  have asked : (id, a.verdict?.map answerOf) ∈ w.state.asked := by
    rw [asked_eq sound.kept]
    exact List.mem_filterMap.2 ⟨a, made, by simp [Attempt.asked?, mine]⟩
  obtain ⟨⟨call, answer⟩, there, is⟩ := Keeper.mem_asked_iff.1 asked
  cases call with
  | refresh => exact ⟨answer, there⟩
  | _ => cases is

end World

end ApiCatalog
