/-
# ApiCatalog.Proofs.Core -- what a world is for its refreshes

Of a world `World.core` keeps what its refreshes read and write, and what their
owners see of them: the lock, the queue and the attempts; the ledger; the calls
to refresh with their answers; whether the loop waits for a refresh of its own,
and the failures that it has reported.  The line and the alarms are left out.

Every step of a world is a few moves of its core (`moves_of_step`):

* an attempt joins the queue;
* the head of the queue takes the lock and starts its fetch;
* a fetch goes on, and its attempt ends if the fetch does;
* the loop comes into being, and the life of the keeper ends;
* time passes.
-/
import ApiCatalog.Proofs.Ledger
import ApiCatalog.Proofs.Runs
import ApiCatalog.Report.Traffic

namespace ApiCatalog

set_option autoImplicit false

/-! ## What the owners of attempts see -/

/-- Whether the loop waits for its own refresh. -/
def LoopPhase.isRefreshing {τ : Type} : LoopPhase τ → Bool
  | .refreshing _ => true
  | _ => false

/-- The failure of a refresh that the loop reports. -/
def Note.report? {τ : Type} : Note τ → Option Failure
  | .event (.contractViolated why) => some why
  | .event (.refreshCrashed why) => some why
  | _ => none

/-- What the loop has to report of a refresh of its own. -/
def Verdict.report : Verdict → List Failure
  | .raised .cancelled => []
  | .raised why => [why]
  | _ => []

/-- The number and the answer of a call to refresh. -/
def Caller.asked? {τ : Type} (c : Caller τ) (id : Nat) : Option (Nat × Option Answer) :=
  match c.call with
  | .refresh => some (id, c.answer)
  | _ => none

namespace Keeper

variable {τ σ : Type}

/-- Of calls that are counted from a number on, those to refresh, with their answers. -/
def askedFrom (number : Nat) (callers : List (Caller τ)) : List (Nat × Option Answer) :=
  (callers.zipIdx number).filterMap fun pair => pair.1.asked? pair.2

/-- The calls to refresh with their answers, in the order in which they were made. -/
def asked (k : Keeper τ σ) : List (Nat × Option Answer) := askedFrom 0 k.callers

/-- Whether the loop waits for its own refresh. -/
def loopBusy (k : Keeper τ σ) : Bool := k.loop.any (·.phase.isRefreshing)

/-- The failures of its own refreshes that the loop has reported. -/
def reports (k : Keeper τ σ) : List Failure := k.journal.filterMap Note.report?

end Keeper

/-- Note the answer to a call. -/
def deliver (id : Nat) (answer : Answer) (asked : List (Nat × Option Answer)) :
    List (Nat × Option Answer) :=
  asked.map fun pair => if pair.1 = id then (pair.1, some answer) else pair

/-- An answer to another call changes nothing. -/
theorem deliver_of_ne {id : Nat} {answer : Answer} {asked : List (Nat × Option Answer)}
    (other : ∀ pair ∈ asked, pair.1 ≠ id) : deliver id answer asked = asked := by
  refine (List.map_congr_left fun pair mem => ?_).trans asked.map_id
  simp [other pair mem]

theorem deliver_append (id : Nat) (answer : Answer) (first second : List (Nat × Option Answer)) :
    deliver id answer (first ++ second) = deliver id answer first ++ deliver id answer second := by
  simp [deliver]

/-- Answers leave the numbers of the calls alone. -/
theorem numbers_deliver (id : Nat) (answer : Answer) (asked : List (Nat × Option Answer)) :
    (deliver id answer asked).map Prod.fst = asked.map Prod.fst := by
  simp only [deliver, List.map_map]
  refine List.map_congr_left fun pair _ => ?_
  simp only [Function.comp_apply]
  split <;> rfl

/-- Where numbers increase, one answer is filled in. -/
theorem deliver_of_numbered {first rest : List (Nat × Option Answer)} {id : Nat}
    {before : Option Answer}
    (numbered : ((first ++ (id, before) :: rest).map Prod.fst).Pairwise (· < ·))
    (answer : Answer) :
    deliver id answer (first ++ (id, before) :: rest) = first ++ (id, some answer) :: rest := by
  rw [List.map_append, List.map_cons, List.pairwise_append, List.pairwise_cons] at numbered
  obtain ⟨-, ⟨later, -⟩, earlier⟩ := numbered
  have below : ∀ pair ∈ first, pair.1 ≠ id := fun pair mem =>
    Nat.ne_of_lt (earlier pair.1 (List.mem_map_of_mem mem) id (by simp))
  have above : ∀ pair ∈ rest, pair.1 ≠ id := fun pair mem =>
    Nat.ne_of_gt (later pair.1 (List.mem_map_of_mem mem))
  calc deliver id answer (first ++ (id, before) :: rest)
      = deliver id answer first ++ (id, some answer) :: deliver id answer rest := by
        simp [deliver]
    _ = first ++ (id, some answer) :: rest := by
        rw [deliver_of_ne below, deliver_of_ne above]

/-! ## The core and its moves -/

/-- What a world is for its refreshes. -/
structure Core (τ σ : Type) where
  now : τ
  strict : Bool
  locked : Bool
  queue : List Nat
  attempts : List (Attempt τ σ)
  ledger : Ledger τ
  /-- The fetches in flight. -/
  traffic : Report.Traffic
  asked : List (Nat × Option Answer)
  lifecycle : Lifecycle
  hasLoop : Bool
  loopBusy : Bool
  reports : List Failure

namespace Core

variable {τ σ κ : Type}

/-- The owner of a new attempt waits for it. -/
def expect (owner : Owner) (c : Core τ σ) : Core τ σ :=
  match owner with
  | .loop => { c with loopBusy := true }
  | .caller id => { c with asked := c.asked ++ [(id, none)] }

/-- A new attempt takes its place in the queue. -/
def enqueue (owner : Owner) (c : Core τ σ) : Core τ σ :=
  { c with
    attempts := c.attempts ++ [{ owner, arrived := c.now }]
    queue := c.queue ++ [c.attempts.length] }

/-- Move an attempt on. -/
def setStage (ticket : Nat) (stage : AttemptStage τ σ) (c : Core τ σ) : Core τ σ :=
  { c with attempts := c.attempts.modify ticket fun a => { a with stage } }

/-- The owner of an attempt that has ended learns what became of it. -/
def goOn (owner : Owner) (verdict : Verdict) (c : Core τ σ) : Core τ σ :=
  match owner with
  | .loop =>
    { c with
      loopBusy := false
      reports := if c.loopBusy then c.reports ++ verdict.report else c.reports }
  | .caller id => { c with asked := deliver id (World.answerOf verdict) c.asked }

/-- The end of an attempt is taken down and the lock released. -/
def settle (ticket : Nat) (began : τ) (outcome : Outcome) (c : Core τ σ) : Core τ σ :=
  { c.setStage ticket (.ended began c.now outcome (Verdict.of c.strict outcome)) with
    locked := false
    ledger := c.ledger.after c.strict began outcome
    traffic := c.traffic.after .closed }

/-- The fetch of an attempt has ended. -/
def conclude (ticket : Nat) (owner : Owner) (began : τ) (outcome : Outcome) (c : Core τ σ) :
    Core τ σ :=
  c.settle ticket began outcome |>.goOn owner (Verdict.of c.strict outcome)

/-- Take over what the fetch of an attempt has done. -/
def absorb (ticket : Nat) (owner : Owner) (began : τ) (p : Progress τ σ κ) (c : Core τ σ) :
    Core τ σ :=
  let c := c.setStage ticket (.fetching began p.work)
  match p.outcome with
  | none => c
  | some outcome => c.conclude ticket owner began outcome

/-- The number of fetches that were started. -/
def fetches (c : Core τ σ) : Nat := c.attempts.countP Attempt.isStarted

/-- The lock is taken and a fetch starts, others being left in the queue. -/
def take (queue : List Nat) (c : Core τ σ) : Core τ σ :=
  { c with locked := true, queue, traffic := c.traffic.after .opened }

/-- The life of the keeper ends. -/
def retire (c : Core τ σ) : Core τ σ := { c with lifecycle := .stopped }

/-- The second core is the first, except that the life of the keeper may have ended. -/
def Outlives (c d : Core τ σ) : Prop := d = c ∨ d = c.retire

/-- Somebody who may ask for a refresh now: the loop if it does not wait for one, or a new call. -/
def Admits (c : Core τ σ) : Owner → Prop
  | .loop => c.hasLoop = true ∧ c.loopBusy = false
  | .caller id => ∀ pair ∈ c.asked, pair.1 < id

/-- What may happen to a core. -/
inductive Move [Clock τ] (source : Source τ σ κ) : Core τ σ → Core τ σ → Prop
  | join {c : Core τ σ} {owner : Owner} (admitted : c.Admits owner) :
      Move source c ((c.expect owner).enqueue owner)
  | start {c : Core τ σ} {ticket : Nat} {rest : List Nat} {a : Attempt τ σ}
      (free : c.locked = false) (head : c.queue = ticket :: rest)
      (there : c.attempts[ticket]? = some a) :
      Move source c ((c.take rest).absorb ticket a.owner c.now (source.start c.fetches))
  | resume {c : Core τ σ} {ticket : Nat} {owner : Owner} {arrived began : τ} {work : σ}
      (there : c.attempts[ticket]? = some ⟨owner, arrived, .fetching began work⟩) (token : κ) :
      Move source c (c.absorb ticket owner began (source.resume work token))
  | found {c : Core τ σ} (idle : c.lifecycle = .idle) :
      Move source c { c with lifecycle := .running, hasLoop := true, loopBusy := false }
  | retire (c : Core τ σ) : Move source c c.retire
  | pass {c : Core τ σ} {moment : τ} (later : c.now < moment) :
      Move source c { c with now := moment }

/-- The second core comes from the first by moves. -/
def Moves [Clock τ] (c : Core τ σ) (source : Source τ σ κ) (d : Core τ σ) : Prop :=
  Relation.ReflTransGen (Move source) c d

theorem Moves.outlive [Clock τ] {source : Source τ σ κ} {b c d : Core τ σ}
    (moves : b.Moves source c) (outlives : c.Outlives d) : b.Moves source d := by
  rcases outlives with rfl | rfl
  · exact moves
  · exact moves.tail (.retire c)

end Core

namespace World

variable {τ σ κ : Type}

/-- What a world is for its refreshes. -/
def core (w : World τ σ κ) : Core τ σ where
  now := w.now
  strict := w.state.strict
  locked := w.state.locked
  queue := w.state.queue
  attempts := w.state.attempts
  ledger := w.state.ledger
  traffic := Report.Traffic.fetches w.state.journal
  asked := w.state.asked
  lifecycle := w.state.lifecycle
  hasLoop := w.state.loop.isSome
  loopBusy := w.state.loopBusy
  reports := w.state.reports

end World

end ApiCatalog
