/-
# ApiCatalog.Keeper.Refresh -- one refresh after the other

An attempt takes the lock, fetches, indexes what was fetched, and publishes the
new snapshot or keeps the old one.  What becomes of it:

* the enumeration is indexed: its snapshot is published and the last error is
  cleared;
* the fetch fails: the failure is the last error, and the refresh is answered
  with false;
* a strict reader cannot read a group-version: the failure is the last error,
  and the refresh fails with it;
* indexing fails in another way, or the fetch is cancelled: the refresh fails
  and nothing is recorded.

In every case the attempt is timed and the lock released.  Then its owner goes
on: a caller gets its answer, and the loop rests until its next tick.
-/
import ApiCatalog.Keeper.Basic

namespace ApiCatalog

set_option autoImplicit false

namespace World

variable {τ σ κ : Type}

/-- How many turns later a waiting call learns of a signal. -/
def signalRelays : Nat := 2

/-- How many turns later the loop goes on when its next tick is due already. -/
def overdueRelays : Nat := 2

/-- Wake the calls that wait for the first snapshot. -/
def signalSyncWaiters (w : World τ σ κ) : World τ σ κ :=
  w.wakeAll ((w.state.pending Call.isSyncWait).map .caller) signalRelays

/-- Write down what happened. -/
def note (notes : List (Note τ)) (w : World τ σ κ) : World τ σ κ := w.modify (·.note notes)

/-- Write down what the keeper has to say. -/
def say (e : Event τ) (w : World τ σ κ) : World τ σ κ := note [.event e] w

/-! ## The loop after its refresh -/

/-- The loop comes to its end. -/
def endLoop (cancelled : Bool) (w : World τ σ κ) : World τ σ κ :=
  let w := w.modify fun k =>
    { k.setPhase (.ended cancelled) with lifecycle := .stopped, stopSignal := true }
  let w := signalSyncWaiters w
  w.wakeAll ((w.state.pending Call.isStop).map .caller) 0

variable [Clock τ]

/-- The loop rests from the end of a refresh that it asked for at `began` until its next tick.  A
tick that is due already gives it a turn some turns later; a rest when it has been asked to stop is
its end. -/
def rest (interval began : τ) (w : World τ σ κ) : World τ σ κ :=
  let left := interval - (w.now - began)
  if 0 < left then
    if w.state.stopAsked then endLoop false w
    else (w.modify (·.setPhase .resting)).arm left .loop
  else (w.modify (·.setPhase .pending)).wake .loop overdueRelays

/-- The loop's own refresh has ended. -/
def afterLoopRefresh (verdict : Verdict) (w : World τ σ κ) : World τ σ κ :=
  match w.state.loop with
  | some ⟨interval, .refreshing began⟩ =>
    match verdict with
    | .published | .kept _ => rest interval began w
    | .raised .cancelled => endLoop true w
    | .raised why =>
      say (if why.isBreach then .contractViolated why else .refreshCrashed why) w
        |> rest interval began
  | _ => w

/-- What a refresh answers its caller. -/
def answerOf : Verdict → Answer
  | .published => .truth true
  | .kept _ => .truth false
  | .raised why => .failed why

/-- The owner of an attempt that has ended goes on. -/
def goOn (owner : Owner) (verdict : Verdict) (w : World τ σ κ) : World τ σ κ :=
  match owner with
  | .loop => afterLoopRefresh verdict w
  | .caller id => w.modify (·.answer id (answerOf verdict))

/-! ## The end of an attempt -/

/-- Publish a snapshot. -/
def publish (snapshot : Snapshot τ) (w : World τ σ κ) : World τ σ κ :=
  let groupVersions := snapshot.groupVersions.size
  let resources := snapshot.resourceCount
  let w := w.modify fun k => { k with snapshot := some snapshot, syncSignal := true }
  let w := signalSyncWaiters w
  let w := w.modify fun k =>
    { k with
      lastError := none
      meters := { k.meters with
        groupVersions := some groupVersions
        resources := some resources
        synced := some 1
        lastSuccess := some snapshot.fetchedAt
        successes := k.meters.successes + 1 } }
  say (.snapshotPublished groupVersions resources) w

/-- A failed fetch is recorded. -/
def recordFailure (why : Failure) (w : World τ σ κ) : World τ σ κ :=
  let w := w.modify fun k =>
    { k with
      lastError := some why
      meters := { k.meters with failures := k.meters.failures + 1 } }
  say (.refreshFailed why) w

/-- A breach of contract is recorded. -/
def recordBreach (why : Failure) (w : World τ σ κ) : World τ σ κ :=
  w.modify fun k =>
    { k with
      lastError := some why
      meters := { k.meters with breaches := k.meters.breaches + 1 } }

/-- Find out what becomes of a refresh, given what its fetch ended with. -/
def judge (began : τ) (outcome : Outcome) (w : World τ σ κ) : Verdict × World τ σ κ :=
  match outcome with
  | .error why =>
    if why.isCancelled then (.raised why, w) else (.kept why, recordFailure why w)
  | .ok listings =>
    let indexed := Snapshot.index w.state.strict listings
    let w := note (indexed.remarks.map .indexing) w
    match indexed.result with
    | .ok entries => (.published, publish ⟨entries, began⟩ w)
    | .error why => (.raised why, if why.isBreach then recordBreach why w else w)

/-- Release the lock and give the head of the queue a turn. -/
def release (w : World τ σ κ) : World τ σ κ :=
  let w := w.modify fun k => { k with locked := false }
  match w.state.queue with
  | [] => w
  | ticket :: _ => w.wake (.attempt ticket) 0

/-- The fetch of an attempt has ended. -/
def conclude (ticket : Nat) (owner : Owner) (began : τ) (outcome : Outcome) (w : World τ σ κ) :
    World τ σ κ :=
  let (verdict, w) := note [.fetchEnded] w |> judge began outcome
  let w := w.modify fun k =>
    { k.setStage ticket (.ended began w.now outcome verdict) with
      meters := { k.meters with durations := k.meters.durations ++ [w.now - began] } }
  release w |> goOn owner verdict

/-! ## The course of an attempt -/

/-- Take over what the fetch of an attempt has done. -/
def absorb (ticket : Nat) (owner : Owner) (began : τ) (p : Progress τ σ κ) (w : World τ σ κ) :
    World τ σ κ :=
  let w := w.modify fun k => (k.setStage ticket (.fetching began p.work)).note (p.notes.map .source)
  let w := w.follow (.fetch ticket) p
  match p.outcome with
  | none => w
  | some outcome => conclude ticket owner began outcome w

/-- An attempt takes the lock and starts its fetch. -/
def begin (source : Source τ σ κ) (ticket : Nat) (owner : Owner) (w : World τ σ κ) :
    World τ σ κ :=
  let p := source.start w.state.fetches
  let w := w.modify fun k => { k with locked := true }
  let w := say .refreshStarted w |> note [.fetchStarted]
  absorb ticket owner w.now p w

/-- A refresh is asked for: it starts at once or joins the queue. -/
def arrive (source : Source τ σ κ) (owner : Owner) (w : World τ σ κ) : World τ σ κ :=
  let ticket := w.state.attempts.length
  let free := !w.state.locked && w.state.queue.isEmpty
  let w := w.modify fun k => { k with attempts := k.attempts ++ [{ owner, arrived := w.now }] }
  if free then begin source ticket owner w
  else w.modify fun k => { k with queue := k.queue ++ [ticket] }

/-- The turn of a waiting attempt: at the head of the queue and with the lock free, it starts. -/
def attemptTurn (source : Source τ σ κ) (ticket : Nat) (w : World τ σ κ) : World τ σ κ :=
  match w.state.queue, w.state.attempts[ticket]? with
  | head :: rest, some attempt =>
    if head = ticket && !w.state.locked then
      begin source ticket attempt.owner (w.modify fun k => { k with queue := rest })
    else w
  | _, _ => w

/-- The turn of a fetch. -/
def fetchTurn (source : Source τ σ κ) (ticket : Nat) (token : κ) (w : World τ σ κ) :
    World τ σ κ :=
  match w.state.attempts[ticket]? with
  | some ⟨owner, _, .fetching began work⟩ => absorb ticket owner began (source.resume work token) w
  | _ => w

end World

end ApiCatalog
