/-
# ApiCatalog.Keeper -- a catalogue that keeps itself fresh

Callers may ask a keeper to refresh, to start and to stop the background loop,
and to wait for the first snapshot (`World.call`).  The loop refreshes once when
it is started and then once in every interval, counted from the start of one
refresh to the start of the next; a refresh that takes longer delays the next
tick and doubles none.  It ends when it has been asked to stop and at no other
time, except that it ends also when one of its refreshes is cancelled.

`World.act` is what each part does with its turn.
-/
import ApiCatalog.Keeper.Refresh

namespace ApiCatalog

set_option autoImplicit false

namespace World

variable {τ σ κ : Type} [Clock τ]

/-! ## Turns -/

/-- The turn of the loop: it ends if it has been asked to, else it asks for a refresh. -/
def loopTurn (source : Source τ σ κ) (w : World τ σ κ) : World τ σ κ :=
  match w.state.loop with
  | some ⟨_, .pending⟩ | some ⟨_, .resting⟩ =>
    if w.state.stopAsked then endLoop false w
    else w.modify (·.setPhase (.refreshing w.now)) |> arrive source .loop
  | _ => w

/-- A call to stop is answered after the end of the loop. -/
def answerStop (id : Nat) (cancelled : Bool) (w : World τ σ κ) : World τ σ κ :=
  if cancelled then w.modify (·.answer id (.failed .cancelled))
  else (say .stopped w).modify (·.answer id .done)

/-- The turn of a call that waits: it is answered by what is the case now. -/
def callerTurn [DecidableEq κ] (id : Nat) (w : World τ σ κ) : World τ σ κ :=
  match w.state.callers[id]? with
  | some ⟨.waitForSync _, none⟩ =>
    (w.disarm (.caller id)).modify fun k => k.answer id (.truth k.syncSignal)
  | some ⟨.stop, none⟩ =>
    match w.state.loop with
    | some ⟨_, .ended cancelled⟩ => answerStop id cancelled w
    | _ => w
  | _ => w

/-- What each part does with its turn. -/
def act [DecidableEq κ] (source : Source τ σ κ) : Target κ → World τ σ κ → World τ σ κ
  | .loop, w => loopTurn source w
  | .attempt ticket, w => attemptTurn source ticket w
  | .fetch ticket token, w => fetchTurn source ticket token w
  | .caller id, w => callerTurn id w

/-! ## Calls -/

/-- The first call to start creates the loop; any other is ignored. -/
def startLoop (id : Nat) (interval : τ) (w : World τ σ κ) : World τ σ κ :=
  let w : World τ σ κ :=
    match w.state.lifecycle with
    | .idle =>
      (w.modify fun k => { k with lifecycle := .running, loop := some { interval } }).wake .loop 0
        |> say (.started interval)
    | state => say (.startIgnored state) w
  w.modify (·.answer id .done)

/-- A call to stop.  Without a loop it is answered at once; a resting loop is woken. -/
def askToStop [DecidableEq κ] (id : Nat) (w : World τ σ κ) : World τ σ κ :=
  let w := w.modify fun k => { k with stopAsked := true }
  match w.state.loop with
  | none =>
    let w := w.modify fun k => { k with lifecycle := .stopped, stopSignal := true }
    (signalSyncWaiters w).modify (·.answer id .done)
  | some ⟨_, .ended cancelled⟩ => answerStop id cancelled w
  | some ⟨_, .resting⟩ => ((w.disarm .loop).modify (·.setPhase .pending)).wake .loop 0
  | some _ => w

/-- A call to wait for the first snapshot: answered at once if there is one. -/
def waitForSync (id : Nat) (timeout : Option τ) (w : World τ σ κ) : World τ σ κ :=
  if w.state.syncSignal then w.modify (·.answer id (.truth true))
  else
    let w := if w.state.stopSignal then w.wake (.caller id) signalRelays else w
    match timeout with
    | some span => w.arm span (.caller id)
    | none => w

/-- Make a call.  Its number is the count of calls before it. -/
def call [DecidableEq κ] (source : Source τ σ κ) (c : Call τ) (w : World τ σ κ) : World τ σ κ :=
  let id := w.state.callers.length
  let w := w.modify fun k => { k with callers := k.callers ++ [{ call := c }] }
  match c with
  | .refresh => arrive source (.caller id) w
  | .start interval => startLoop id interval w
  | .stop => askToStop id w
  | .waitForSync timeout => waitForSync id timeout w

/-! ## Courses -/

/-- A keeper at time zero. -/
def init (strict : Bool) : World τ σ κ := { now := 0, state := { strict } }

/-- Run until nothing can run without time passing. -/
def settle [DecidableEq κ] (source : Source τ σ κ) (fuel : Nat) (w : World τ σ κ) : World τ σ κ :=
  Timeline.settle (act source) fuel w

/-- Let time pass until a call is answered, and run what can run then. -/
def await [DecidableEq κ] (source : Source τ σ κ) (id : Nat) (fuel : Nat) (w : World τ σ κ) :
    World τ σ κ :=
  Timeline.await (act source) (fun k => (k.answerOf id).isSome) fuel fuel w

/-- Let a span of time pass. -/
def advance [DecidableEq κ] (source : Source τ σ κ) (span : τ) (fuel : Nat) (w : World τ σ κ) :
    World τ σ κ :=
  Timeline.advance (act source) span fuel w

end World

end ApiCatalog
