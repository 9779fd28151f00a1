/-
# ApiCatalog.Proofs.Survival -- the loop survives all but its end

A loop that has come into being ends after a call to stop, or when a fetch of its
own is cancelled, and in no other way: whatever else its fetches end with, and
whatever the indexing makes of that, it goes on.  So while neither has happened
and nothing can run without time passing, it waits for its own refresh or for its
next tick (`World.SurvivesRight`).

Its end takes nothing else along.  The lock is left to the callers, the snapshot
stays, calls to refresh are served as before, and calls to stop are answered by
how the loop has ended (`World.Outlived`).
-/
import ApiCatalog.Proofs.AfterStop
import ApiCatalog.Proofs.Balance
import ApiCatalog.Proofs.Gauges
import ApiCatalog.Proofs.Lifecycle
import ApiCatalog.Proofs.Summons

namespace ApiCatalog

set_option autoImplicit false

/-! ## Cancelled fetches -/

/-- A refresh is passed on as cancelled if its fetch was, and only then. -/
theorem Verdict.of_eq_cancelled_iff {strict : Bool} {outcome : Outcome} :
    Verdict.of strict outcome = .raised .cancelled ↔ outcome = .error .cancelled := by
  cases outcome with
  | error why => cases why <;> simp [Verdict.of]
  | ok listings =>
    refine iff_of_false (fun cancelled => ?_) (by simp)
    cases indexed : (Snapshot.index strict listings).result with
    | ok entries => simp [Verdict.of, indexed] at cancelled
    | error why =>
      simp only [Verdict.of, indexed, Verdict.raised.injEq] at cancelled
      subst cancelled
      rcases Snapshot.refusal_of_index indexed with ⟨cause, is⟩ | is | is <;> cases is

/-- Whether the fetch of an attempt was cancelled. -/
def Attempt.isCancelled {τ σ : Type} (a : Attempt τ σ) : Bool :=
  match a.stage with
  | .ended _ _ (.error .cancelled) _ => true
  | _ => false

theorem Attempt.isCancelled_iff {τ σ : Type} {a : Attempt τ σ} :
    a.isCancelled = true ↔ ∃ began, a.course? = some (began, .error .cancelled) := by
  obtain ⟨owner, arrived, stage⟩ := a
  cases stage with
  | ended began ended outcome verdict =>
    cases outcome with
    | ok listings => simp [isCancelled, course?]
    | error why => cases why <;> simp [isCancelled, course?]
  | _ => simp [isCancelled, course?]

namespace Core

variable {τ σ κ : Type} {c : Core τ σ} {l : Line τ σ}

/-- Whoever is in the queue is an attempt that has not started. -/
theorem Orderly.exists_of_mem_queue (orderly : c.Orderly l) {n : Nat} (mem : n ∈ c.queue) :
    ∃ a, c.attempts[n]? = some a ∧ a.stage = .queued := by
  rw [orderly.queue, List.mem_range'_1] at mem
  obtain ⟨i, rfl⟩ := Nat.exists_eq_add_of_le mem.1
  have inside : i < l.waiting.length := by omega
  refine ⟨l.waiting[i], ?_, orderly.waiting _ (List.getElem_mem inside)⟩
  rw [orderly.attempts, Line.attempts, ← List.length_append,
    List.getElem?_append_right (Nat.le_add_right _ _), Nat.add_sub_cancel_left]
  exact List.getElem?_eq_getElem inside

/-- Whoever holds the lock is an attempt that fetches. -/
theorem Orderly.exists_of_locked (orderly : c.Orderly l) (locked : c.locked = true) :
    ∃ (n : Nat) (a : Attempt τ σ), c.attempts[n]? = some a ∧ a.isFetching = true := by
  obtain ⟨a, current⟩ := Option.isSome_iff_exists.1 (orderly.locked.symm.trans locked)
  refine ⟨l.ended.length, a, ?_, orderly.current a current⟩
  rw [orderly.attempts, Line.attempts, current]
  simp

/-- A loop that waits for its own refresh has an attempt that has not ended. -/
theorem Kept.exists_of_loopBusy (kept : c.Kept l) (busy : c.loopBusy = true) :
    ∃ (n : Nat) (a : Attempt τ σ),
      c.attempts[n]? = some a ∧ a.owner = .loop ∧ a.isEnded = false := by
  have one : 0 < l.pending.countP Attempt.isOfLoop := by
    rw [kept.told.busy, busy]
    exact Nat.one_pos
  obtain ⟨a, pending, mine⟩ := List.countP_pos_iff.1 one
  have mem : a ∈ c.attempts := by
    rw [kept.orderly.attempts_eq]
    exact List.mem_append_right _ pending
  obtain ⟨n, there⟩ := List.mem_iff_getElem?.1 mem
  exact ⟨n, a, there, Attempt.isOfLoop_iff.1 mine, (kept.orderly.unknown pending).1⟩

/-- What the loop learns is whether a fetch of its own was cancelled. -/
theorem Sound.cancelled_iff {source : Source τ σ κ} {strict : Bool}
    (sound : c.Sound source strict l) :
    .raised .cancelled ∈ (c.attempts.filter Attempt.isOfLoop).filterMap Attempt.verdict? ↔
      ∃ a ∈ c.attempts, a.owner = .loop ∧ a.isCancelled = true := by
  simp only [List.mem_filterMap, List.mem_filter, and_assoc]
  refine exists_congr fun a => and_congr_right fun mem => ?_
  rw [Attempt.isOfLoop_iff, Attempt.isCancelled_iff]
  refine and_congr_right fun _ => ?_
  rw [sound.judged mem, Option.map_eq_some_iff]
  constructor
  · rintro ⟨⟨began, outcome⟩, course, is⟩
    cases Verdict.of_eq_cancelled_iff.1 is
    exact ⟨began, course⟩
  · rintro ⟨began, course⟩
    exact ⟨_, course, Verdict.of_eq_cancelled_iff.2 rfl⟩

end Core

/-! ## The end of the loop -/

namespace Helm

variable {τ : Type} {g h : Helm τ} {interval : τ} {cancelled : Bool}

/-- The end of the loop is its end: no order changes it. -/
theorem Order.ended {c : Call τ} (order : Order c g h) (lived : g.Lived)
    (ended : g.loop = some ⟨interval, .ended cancelled⟩) :
    h.loop = some ⟨interval, .ended cancelled⟩ := by
  cases order with
  | found idle interval => cases ended.symm.trans (lived.loop_of_idle idle).1
  | rouse rests => cases ended.symm.trans rests
  | _ => exact ended

/-- No move changes it. -/
theorem Move.ended [Clock τ] (move : Move g h)
    (ended : g.loop = some ⟨interval, .ended cancelled⟩) :
    h.loop = some ⟨interval, .ended cancelled⟩ := by
  cases move with
  | quit turn there poised asked =>
    cases ended.symm.trans there
    cases poised
  | tick turn there poised unasked =>
    cases ended.symm.trans there
    cases poised
  | learn refreshes verdict => cases ended.symm.trans refreshes
  | _ => exact ended

end Helm

namespace World

variable {τ σ κ : Type} [Clock τ] [DecidableEq κ] {source : Source τ σ κ} {strict : Bool}
  {v w : World τ σ κ}

theorem ended_of_run (reached : Reachable source strict v) (onward : Run source v w)
    {interval : τ} {cancelled : Bool}
    (ended : v.state.loop = some ⟨interval, .ended cancelled⟩) :
    w.state.loop = some ⟨interval, .ended cancelled⟩ := by
  have both : (helm w).Lived ∧ (helm w).loop = some ⟨interval, .ended cancelled⟩ := by
    refine Reachable.steers
      (P := fun h => h.Lived ∧ h.loop = some ⟨interval, .ended cancelled⟩) ?_ ?_ reached onward
      ⟨reached.steered.lived, ended⟩
    · rintro c g h order ⟨lived, ended⟩
      exact ⟨lived.order order, order.ended lived ended⟩
    · rintro g h move ⟨lived, ended⟩
      exact ⟨lived.move move, move.ended ended⟩
  exact both.2

/-- After the end of the loop a call to stop is answered at once. -/
theorem answerOf_call_stop {interval : τ} {cancelled : Bool}
    (ended : w.state.loop = some ⟨interval, .ended cancelled⟩) :
    (call source .stop w).state.answerOf w.state.callers.length =
      some (if cancelled then .failed .cancelled else .done) := by
  cases cancelled <;>
    simp [call, askToStop, answerStop, ended, Timeline.modify, say, note, Keeper.note,
      Keeper.answer, Keeper.answerOf]

/-- What calls to stop are answered after the end of the loop: those that have been answered, one
that is made now, and all of them where nothing can run without time passing. -/
structure AnswersStops (source : Source τ σ κ) (answer : Answer) (w : World τ σ κ) : Prop where
  answered : ∀ (id : Nat) (a : Answer),
    w.state.callers[id]? = some ⟨.stop, some a⟩ → a = answer
  atOnce : (call source .stop w).state.answerOf w.state.callers.length = some answer
  quiet : w.Quiet → ∀ id : Nat, w.state.callers[id]? ≠ some ⟨.stop, none⟩

theorem answersStops (reached : Reachable source strict w) {interval : τ} {cancelled : Bool}
    (ended : w.state.loop = some ⟨interval, .ended cancelled⟩) :
    AnswersStops source (if cancelled then .failed .cancelled else .done) w := by
  refine ⟨fun id a answered => ?_, answerOf_call_stop ended, fun quiet id waits => ?_⟩
  · obtain ⟨_, ⟨⟩, is⟩ := answer_of_stopped reached ended answered
    exact is
  · have turn := reached.summoned interval cancelled ended id (by simp) waits
    rw [quiet.1] at turn
    cases turn

/-! ## Calls to refresh -/

/-- A call to refresh is served: at once if nobody holds the lock or waits for it, and in any case
before the last fetch has ended.  It is answered by what its own fetch has come to. -/
structure ServesRefresh (source : Source τ σ κ) (strict : Bool) (w : World τ σ κ) : Prop where
  atOnce : w.state.locked = false → w.state.queue = [] →
    ((call source .refresh w).state.attempts[w.state.attempts.length]?).any
      Attempt.isStarted = true
  served : ∀ x, Run source (call source .refresh w) x → x.Quiet → inFlight x = 0 →
    ∃ (n : Nat) (a : Attempt τ σ) (outcome : Outcome), x.state.attempts[n]? = some a ∧
      a.owner = .caller w.state.callers.length ∧ source.Yields n outcome ∧
      ∃ answer, x.state.answerOf w.state.callers.length = some answer ∧
        (Verdict.of strict outcome).Tells answer

/-- A call that is made to refresh stays one. -/
theorem callers_refresh (reached : Reachable source strict v)
    (onward : Run source (call source .refresh v) w) :
    ∃ answer, w.state.callers[v.state.callers.length]? = some ⟨.refresh, answer⟩ := by
  let called : World τ σ κ :=
    v.modify fun k => { k with callers := k.callers ++ [{ call := .refresh }] }
  have there : (desk called).callers[v.state.callers.length]? = some ⟨.refresh, none⟩ := by
    simp [called, desk, Timeline.modify]
  have rightful : (desk called).Rightful (.caller v.state.callers.length) := by
    rintro id ⟨⟩
    exact ⟨none, there⟩
  obtain ⟨answer, made⟩ := (deeds_arrive_caller source rightful).call there
  exact callers_of_run (reached.run (run_call .refresh v)) onward (c := ⟨.refresh, answer⟩) made

theorem servesRefresh (reached : Reachable source strict w) :
    ServesRefresh source strict w := by
  refine ⟨isStarted_call, fun x onward quiet idle => ?_⟩
  have reached' : Reachable source strict x := (reached.run (run_call .refresh w)).run onward
  obtain ⟨l, sound⟩ := reached'.sound
  obtain ⟨answer, there⟩ := callers_refresh reached onward
  -- the call has an attempt of its own, which has ended like all the others
  obtain ⟨n, a, place, mine⟩ := exists_attempt sound.kept there
  have mem := List.mem_of_getElem? place
  have ended := (isEnded_of_quiet reached' quiet idle).2 a mem
  rw [← a.isSome_course?] at ended
  obtain ⟨⟨began, outcome⟩, course⟩ := Option.isSome_iff_exists.1 ended
  refine ⟨n, a, outcome, place, mine, sound.faithful.yields place course, _, ?_,
    Verdict.tells_answerOf _⟩
  rw [answerOf_eq sound.kept mem mine, sound.judged mem, course]
  rfl

/-! ## What is left after the end -/

/-- What is left after the end of the loop, and from then on. -/
structure Outlived (source : Source τ σ κ) (strict cancelled : Bool) (w : World τ σ κ) : Prop where
  stopped : w.state.lifecycle = .stopped
  signalled : w.state.stopSignal = true
  /-- The refreshes of the loop have ended: who holds the lock or waits for it is a caller. -/
  ended : ∀ a ∈ w.state.attempts, a.owner = .loop → a.isEnded = true
  locked : w.state.locked = true → ∃ (n : Nat) (a : Attempt τ σ) (caller : Nat),
    w.state.attempts[n]? = some a ∧ a.isFetching = true ∧ a.owner = .caller caller
  queued : ∀ n ∈ w.state.queue, ∃ (a : Attempt τ σ) (caller : Nat),
    w.state.attempts[n]? = some a ∧ a.owner = .caller caller
  /-- What was published last is shown, -/
  ledger : w.state.ledger = Ledger.replay strict w.state.course
  /-- and stays, unless a call to refresh publishes another snapshot. -/
  snapshot : ∀ x, Run source w x → x.state.snapshot = w.state.snapshot ∨
    ∃ (n : Nat) (a : Attempt τ σ) (caller : Nat), w.state.completed ≤ n ∧
      x.state.attempts[n]? = some a ∧ a.owner = .caller caller ∧ a.verdict? = some .published
  synced : ∀ x, Run source w x → w.state.isSynced = true → x.state.isSynced = true
  refresh : ∀ x, Run source w x → ServesRefresh source strict x
  stops : ∀ x, Run source w x →
    AnswersStops source (if cancelled then .failed .cancelled else .done) x

theorem outlived (reached : Reachable source strict w) {interval : τ} {cancelled : Bool}
    (ended : w.state.loop = some ⟨interval, .ended cancelled⟩) :
    Outlived source strict cancelled w := by
  obtain ⟨l, sound⟩ := reached.sound
  have stopped : w.state.lifecycle = .stopped := (reached.tidy.lives.finished _ ended).1 rfl
  have idle := loopBusy_of_stopped reached stopped
  have finished (a : Attempt τ σ) (mem : a ∈ w.state.attempts) (mine : a.owner = .loop) :
      a.isEnded = true :=
    sound.kept.isEnded_of_loop idle mem (Attempt.isOfLoop_iff.2 mine)
  have caller {n : Nat} {a : Attempt τ σ} (there : w.state.attempts[n]? = some a)
      (pending : a.isEnded = false) : ∃ caller, a.owner = .caller caller := by
    cases owner : a.owner with
    | loop => cases pending.symm.trans (finished a (List.mem_of_getElem? there) owner)
    | caller caller => exact ⟨caller, rfl⟩
  refine ⟨stopped, reached.tidy.lives.stopped.2 stopped, finished, fun locked => ?_,
    fun n mem => ?_, ledger_eq sound, fun x onward => ?_,
    fun x onward => isSynced_of_run reached onward,
    fun x onward => servesRefresh (reached.run onward),
    fun x onward => answersStops (reached.run onward) (ended_of_run reached onward ended)⟩
  · obtain ⟨n, a, there, fetches⟩ := sound.kept.orderly.exists_of_locked locked
    obtain ⟨caller, mine⟩ := caller there (Attempt.isEnded_of_isFetching fetches)
    exact ⟨n, a, caller, there, fetches, mine⟩
  · obtain ⟨a, there, queued⟩ := sound.kept.orderly.exists_of_mem_queue mem
    obtain ⟨caller, mine⟩ := caller there (Attempt.isEnded_of_queued queued)
    exact ⟨a, caller, there, mine⟩
  · by_cases same : x.state.snapshot = w.state.snapshot
    · exact .inl same
    · obtain ⟨n, a, late, there, published⟩ := exists_published reached onward same
      obtain ⟨caller, mine⟩ := isCaller_of_stopped reached stopped onward late there
      exact .inr ⟨n, a, caller, late, there, mine, published⟩

/-! ## Survival -/

/-- The loop waits for its own refresh, which has not ended. -/
def InRefresh (w : World τ σ κ) : Prop :=
  ∃ (interval began : τ) (n : Nat) (a : Attempt τ σ),
    w.state.loop = some ⟨interval, .refreshing began⟩ ∧ w.state.attempts[n]? = some a ∧
      a.owner = .loop ∧ a.isEnded = false

/-- The loop waits for its next tick, for which its one alarm is set. -/
def AwaitsTick (w : World τ σ κ) : Prop :=
  ∃ interval due, w.state.loop = some ⟨interval, .resting⟩ ∧
    w.alarms.filterMap loopDue? = [due] ∧ w.now < due

/-- What a loop that has come into being comes to. -/
structure SurvivesRight (source : Source τ σ κ) (strict : Bool) (w : World τ σ κ) : Prop where
  /-- A loop that has ended was asked to stop, or a fetch of its own was cancelled. -/
  ended : ∀ interval cancelled, w.state.loop = some ⟨interval, .ended cancelled⟩ →
    if cancelled then ∃ (n : Nat) (a : Attempt τ σ), w.state.attempts[n]? = some a ∧
        a.owner = .loop ∧ a.isCancelled = true ∧ source.Yields n (.error .cancelled)
      else w.state.calls.any Call.isStop = true
  /-- While neither has happened and nothing can run without time passing, it goes on. -/
  quiet : w.Quiet → w.state.calls.any Call.isStop = false →
    (∀ a ∈ w.state.attempts, a.owner = .loop → a.isCancelled = false) →
    w.state.lifecycle = .running ∧ (InRefresh w ∨ AwaitsTick w)
  outlived : ∀ interval cancelled, w.state.loop = some ⟨interval, .ended cancelled⟩ →
    Outlived source strict cancelled w

/-- A loop that has ended was asked to stop, or a fetch of its own was cancelled. -/
theorem ended_why (reached : Reachable source strict w) {interval : τ} {cancelled : Bool}
    (ended : w.state.loop = some ⟨interval, .ended cancelled⟩) :
    if cancelled then ∃ (n : Nat) (a : Attempt τ σ), w.state.attempts[n]? = some a ∧
        a.owner = .loop ∧ a.isCancelled = true ∧ source.Yields n (.error .cancelled)
      else w.state.calls.any Call.isStop = true := by
  obtain ⟨lived, parted, -⟩ := reached.steered
  obtain ⟨l, sound⟩ := reached.sound
  have ending : (helm w).ending? = some cancelled := by
    simp [Helm.ending?, helm, ended, LoopPhase.ending?]
  cases cancelled with
  | false => exact lived.asked.symm.trans (parted.stopped ending)
  | true =>
    have learnt := parted.cancelled.1 ending
    rw [verdicts_helm] at learnt
    obtain ⟨a, mem, mine, cancelled⟩ := sound.cancelled_iff.1 learnt
    obtain ⟨n, there⟩ := List.mem_iff_getElem?.1 mem
    obtain ⟨began, course⟩ := Attempt.isCancelled_iff.1 cancelled
    exact ⟨n, a, there, mine, cancelled, sound.faithful.yields there course⟩

/-- A loop that rests with nobody in line has set its one alarm, which is not due yet. -/
theorem awaitsTick_of_quiet (reached : Reachable source strict w) (quiet : w.Quiet)
    (unasked : w.state.stopAsked = false) {interval : τ}
    (rests : w.state.loop = some ⟨interval, .resting⟩) : AwaitsTick w := by
  have berths := reached.steered.berthed unasked
  rw [show (helm w).loop = _ from rests] at berths
  have turns : (helm w).turns = 0 := by simp [helm, quiet.1]
  have one : (w.alarms.filterMap loopDue?).length = 1 := by
    have card : (helm w).turns.card + (helm w).dues.card = 1 := berths
    rwa [turns, Multiset.card_zero, Nat.zero_add] at card
  obtain ⟨due, dues⟩ := List.length_eq_one_iff.1 one
  refine ⟨interval, due, rests, dues, ?_⟩
  obtain ⟨alarm, set, is⟩ := List.mem_filterMap.1 (dues ▸ List.mem_singleton_self due)
  have same : alarm.due = due := by
    unfold loopDue? at is
    split at is <;> cases is
    rfl
  exact same ▸ quiet.2 alarm set

/-- The loop survives whatever its fetches end with and the indexing makes of that.  It ends after a
call to stop, or when a fetch of its own is cancelled, and leaves everything else as it was. -/
theorem loop_survives (reached : Reachable source strict w) {loop : Loop τ}
    (there : w.state.loop = some loop) : SurvivesRight source strict w := by
  obtain ⟨lived, -, berthed⟩ := reached.steered
  obtain ⟨l, sound⟩ := reached.sound
  refine ⟨fun _ _ => ended_why reached, fun quiet unstopped uncancelled => ?_,
    fun _ _ => outlived reached⟩
  have unasked : w.state.stopAsked = false := lived.asked.trans unstopped
  have turns : (helm w).turns = 0 := by simp [helm, quiet.1]
  have goes (running : loop.phase.isEnded = false) : w.state.lifecycle = .running :=
    lived.lifecycle_of_loop there running
  obtain ⟨interval, phase⟩ := loop
  cases phase with
  | pending =>
    -- a loop with a turn to come would have it in line
    have berths := berthed unasked
    rw [show (helm w).loop = _ from there, turns] at berths
    cases berths.1
  | refreshing began =>
    have busy : (core w).loopBusy = true := loopBusy_of_phase there
    obtain ⟨n, a, place, mine, pending⟩ := sound.kept.exists_of_loopBusy busy
    exact ⟨goes rfl, .inl ⟨interval, began, n, a, there, place, mine, pending⟩⟩
  | resting => exact ⟨goes rfl, .inr (awaitsTick_of_quiet reached quiet unasked there)⟩
  | ended cancelled =>
    have why := ended_why reached there
    cases cancelled with
    | false => cases unstopped.symm.trans why
    | true =>
      obtain ⟨n, a, place, mine, cancelled, -⟩ := why
      cases (uncancelled a (List.mem_of_getElem? place) mine).symm.trans cancelled

/-- A loop goes on after a failure, a catalogue, a crash and a breach of contract, is cancelled at
its fifth fetch, and has a call to stop fail then; or it is stopped before that. -/
theorem loop_survives_mixed :
    let source : Source Int Outcome Unit := .answering Source.mixed
    let goes := advance source 16 60 <| call source (.start 5) (init true)
    let cancelled := advance source 5 60 goes
    let stopped := advance source 5 60 <| call source .stop goes
    SurvivesRight source true goes ∧ SurvivesRight source true cancelled ∧
      SurvivesRight source true stopped ∧ goes.Quiet ∧ goes.state.completed = 4 ∧
      goes.state.lifecycle = .running ∧ (InRefresh goes ∨ AwaitsTick goes) ∧
      cancelled.state.lifecycle = .stopped ∧ cancelled.state.isSynced = true ∧
      ((call source .stop cancelled).state.answerOf 1 matches some (.failed .cancelled)) ∧
      stopped.state.lifecycle = .stopped ∧ stopped.state.completed = 4 ∧
      (stopped.state.answerOf 1 matches some .done) := by
  intro source goes cancelled stopped
  have reached : Reachable source true goes := (run_call (.start 5) _).trans (run_advance 16 60 _)
  have reached' : Reachable source true cancelled := reached.run (run_advance 5 60 _)
  have reached'' : Reachable source true stopped :=
    reached.run ((run_call .stop _).trans (run_advance 5 60 _))
  have loop : goes.state.loop.isSome = true := by decide
  have loop' : cancelled.state.loop.isSome = true := by decide
  have loop'' : stopped.state.loop.isSome = true := by decide
  have survives := loop_survives reached (Option.some_get loop).symm
  have line : goes.ready.isEmpty = true := by decide
  have alarms : (goes.alarms.all fun alarm => goes.now < alarm.due) = true := by decide
  have quiet : goes.Quiet :=
    ⟨List.isEmpty_iff.1 line, fun alarm set => by simpa using List.all_eq_true.1 alarms alarm set⟩
  have unstopped : goes.state.calls.any Call.isStop = false := by decide
  have uncancelled : goes.state.attempts.all (fun a => !a.isCancelled) = true := by decide
  have alive := survives.quiet quiet unstopped fun a mem _ => by
    simpa using List.all_eq_true.1 uncancelled a mem
  exact ⟨survives, loop_survives reached' (Option.some_get loop').symm,
    loop_survives reached'' (Option.some_get loop'').symm, quiet, by decide, alive.1, alive.2,
    by decide, by decide, by decide, by decide, by decide, by decide⟩

end World

end ApiCatalog
