/-
# ApiCatalog.Keeper.Basic -- the state of a self-refreshing catalogue

A keeper holds the published snapshot and refreshes it.  Refreshes are asked for
by callers and by one background loop.  Each becomes an `Attempt` with a ticket,
its place in the order of arrival; attempts are kept after they have ended, so
that the whole course can be read off the state.

One lock lets one attempt fetch at a time.  An attempt that finds the lock taken,
or others waiting for it, waits in a queue.  The lock is handed to nobody: when
it is released the head of the queue gets a turn, stays at the head until the
turn comes, and takes the lock then.

Calls are kept with their answers.  A call that has no answer waits for a turn.
-/
import ApiCatalog.Meters
import ApiCatalog.Snapshot
import ApiCatalog.Source

namespace ApiCatalog

set_option autoImplicit false

/-- The life of the background loop. -/
inductive Lifecycle where
  | idle
  | running
  | stopped
deriving DecidableEq, Repr

/-- The name of a state of life. -/
def Lifecycle.name : Lifecycle → String
  | .idle => "idle"
  | .running => "running"
  | .stopped => "stopped"

/-- What callers may ask of a keeper. -/
inductive Call (τ : Type) where
  | refresh
  | start (interval : τ)
  | stop
  | waitForSync (timeout : Option τ)

/-- What a call is answered with. -/
inductive Answer where
  | done
  | truth (b : Bool)
  | failed (why : Failure)

/-- A call and its answer, if it has one. -/
structure Caller (τ : Type) where
  call : Call τ
  answer : Option Answer := none

/-- Who asks for a refresh. -/
inductive Owner where
  | loop
  | caller (id : Nat)
deriving DecidableEq, Repr

/-- What became of a refresh. -/
inductive Verdict where
  /-- A new snapshot was published. -/
  | published
  /-- The fetch failed and the snapshot was kept. -/
  | kept (why : Failure)
  /-- The refresh itself failed, and the snapshot was kept. -/
  | raised (why : Failure)

/-- How far an attempt has come. -/
inductive AttemptStage (τ σ : Type) where
  | queued
  | fetching (began : τ) (work : σ)
  | ended (began ended : τ) (outcome : Outcome) (verdict : Verdict)

/-- A refresh that was asked for. -/
structure Attempt (τ σ : Type) where
  owner : Owner
  arrived : τ
  stage : AttemptStage τ σ := .queued

/-- Whether an attempt has started its fetch. -/
def Attempt.isStarted {τ σ : Type} (a : Attempt τ σ) : Bool :=
  match a.stage with
  | .queued => false
  | _ => true

/-- Whether an attempt has published a snapshot. -/
def Attempt.isPublished {τ σ : Type} (a : Attempt τ σ) : Bool :=
  match a.stage with
  | .ended _ _ _ .published => true
  | _ => false

/-- Where the background loop is. -/
inductive LoopPhase (τ : Type) where
  /-- It has a turn in line, to look whether it should stop and else to refresh. -/
  | pending
  /-- It waits for its own refresh, which it asked for at this time. -/
  | refreshing (began : τ)
  /-- It waits for its next tick or for being stopped. -/
  | resting
  /-- It has come to its end, possibly by being cancelled. -/
  | ended (cancelled : Bool)

/-- The background loop. -/
structure Loop (τ : Type) where
  interval : τ
  phase : LoopPhase τ := .pending

/-- What a keeper has to say. -/
inductive Event (τ : Type) where
  | refreshStarted
  | refreshFailed (why : Failure)
  | snapshotPublished (groupVersions resources : Nat)
  | startIgnored (state : Lifecycle)
  | started (interval : τ)
  | stopped
  | contractViolated (why : Failure)
  | refreshCrashed (why : Failure)

/-- What happened, in order. -/
inductive Note (τ : Type) where
  | event (e : Event τ)
  | indexing (remark : Snapshot.Remark)
  | source (note : SourceNote τ)
  | fetchStarted
  | fetchEnded

/-- A self-refreshing catalogue. -/
structure Keeper (τ σ : Type) where
  /-- Whether a group-version that cannot be read stops the indexing. -/
  strict : Bool := true
  lifecycle : Lifecycle := .idle
  /-- Whether the loop has been asked to stop. -/
  stopAsked : Bool := false
  /-- The signal that a snapshot was published. -/
  syncSignal : Bool := false
  /-- The signal that the loop has ended or will never run. -/
  stopSignal : Bool := false
  locked : Bool := false
  /-- The tickets that wait for the lock. -/
  queue : List Nat := []
  /-- All attempts, by ticket. -/
  attempts : List (Attempt τ σ) := []
  loop : Option (Loop τ) := none
  /-- All calls, in the order in which they were made. -/
  callers : List (Caller τ) := []
  snapshot : Option (Snapshot τ) := none
  lastError : Option Failure := none
  meters : Meters τ := {}
  journal : List (Note τ) := []

/-- Who takes turns in a keeper. -/
inductive Target (κ : Type) where
  | loop
  | attempt (ticket : Nat)
  | fetch (ticket : Nat) (token : κ)
  | caller (id : Nat)
deriving DecidableEq, Repr

/-- A keeper in time. -/
abbrev World (τ σ κ : Type) := Timeline τ (Target κ) (Keeper τ σ)

namespace Keeper

variable {τ σ : Type}

/-- Whether a snapshot is published. -/
def isSynced (k : Keeper τ σ) : Bool := k.snapshot.isSome

/-- Write down what happened. -/
def note (k : Keeper τ σ) (notes : List (Note τ)) : Keeper τ σ :=
  { k with journal := k.journal ++ notes }

/-- The number of fetches that were started. -/
def fetches (k : Keeper τ σ) : Nat := k.attempts.countP Attempt.isStarted

/-- The number of snapshots that were published. -/
def publications (k : Keeper τ σ) : Nat := k.attempts.countP Attempt.isPublished

/-- Move an attempt on. -/
def setStage (k : Keeper τ σ) (ticket : Nat) (stage : AttemptStage τ σ) : Keeper τ σ :=
  { k with attempts := k.attempts.modify ticket fun a => { a with stage } }

/-- Move the loop on. -/
def setPhase (k : Keeper τ σ) (phase : LoopPhase τ) : Keeper τ σ :=
  { k with loop := k.loop.map fun l => { l with phase } }

/-- Answer a call. -/
def answer (k : Keeper τ σ) (id : Nat) (answer : Answer) : Keeper τ σ :=
  { k with callers := k.callers.modify id fun c => { c with answer := some answer } }

/-- The calls without an answer that are of some sort, in the order in which they were made. -/
def pending (k : Keeper τ σ) (sort : Call τ → Bool) : List Nat :=
  (k.callers.zipIdx.filter fun pair => pair.1.answer.isNone && sort pair.1.call).map Prod.snd

/-- The answer to a call. -/
def answerOf (k : Keeper τ σ) (id : Nat) : Option Answer := (k.callers[id]?).bind (·.answer)

end Keeper

/-- Whether a call waits for the first snapshot. -/
def Call.isSyncWait {τ : Type} : Call τ → Bool
  | .waitForSync _ => true
  | _ => false

/-- Whether a call waits for the end of the loop. -/
def Call.isStop {τ : Type} : Call τ → Bool
  | .stop => true
  | _ => false

end ApiCatalog
