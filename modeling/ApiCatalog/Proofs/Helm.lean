/-
# ApiCatalog.Proofs.Helm -- what a world is for its background loop

Of a world `World.helm` keeps what steers the loop: the calls that were made, the
life of the keeper, whether it has been asked to stop; where the loop is, its
turns in line and its alarms; when it asked for its refreshes, when they ended and
what became of them, and what was said of starts.  The lock, the snapshot and the
answers are left out.

Little can happen to a helm.  A call that starts or stops the loop is an order
(`Helm.Order`): only by one does a loop come into being.  All else is a move
(`Helm.Move`): only by these does a loop tick, rest and end.
-/
import ApiCatalog.Proofs.Accounts
import ApiCatalog.Proofs.Desk

namespace ApiCatalog

set_option autoImplicit false

/-! ## What steers the loop -/

/-- Whether the loop waits for its next turn. -/
def LoopPhase.isPoised {τ : Type} : LoopPhase τ → Bool
  | .pending | .resting => true
  | _ => false

/-- Whether the loop waits for its next tick. -/
def LoopPhase.isResting {τ : Type} : LoopPhase τ → Bool
  | .resting => true
  | _ => false

theorem LoopPhase.isEnded_of_isPoised {τ : Type} {phase : LoopPhase τ}
    (poised : phase.isPoised = true) : phase.isEnded = false := by
  cases phase <;> first | rfl | cases poised

/-- Whether the loop was cancelled, if it has come to its end. -/
def LoopPhase.ending? {τ : Type} : LoopPhase τ → Option Bool
  | .ended cancelled => some cancelled
  | _ => none

theorem LoopPhase.ending?_of_isPoised {τ : Type} {phase : LoopPhase τ}
    (poised : phase.isPoised = true) : phase.ending? = none := by
  cases phase <;> first | rfl | cases poised

/-- Whether a call starts or stops the loop. -/
def Call.isOrder {τ : Type} : Call τ → Bool
  | .start _ | .stop => true
  | _ => false

/-- The interval of the loop that some calls bring into being, if they do: the first one of them
that starts or stops the loop must start it. -/
def Call.founded? {τ : Type} (calls : List (Call τ)) : Option τ :=
  match calls.find? Call.isOrder with
  | some (.start interval) => some interval
  | _ => none

/-- Whether an event answers a call to start. -/
def Event.isOfStart {τ : Type} : Event τ → Bool
  | .startIgnored _ | .started _ => true
  | _ => false

/-- The interval of the loop that an event reports to be started. -/
def Event.started? {τ : Type} : Event τ → Option τ
  | .started interval => some interval
  | _ => none

/-- When an attempt ended, and what became of it. -/
def Attempt.finish? {τ σ : Type} (a : Attempt τ σ) : Option (τ × Verdict) :=
  match a.stage with
  | .ended _ ended _ verdict => some (ended, verdict)
  | _ => none

theorem Attempt.verdict?_of_finish? {τ σ : Type} (a : Attempt τ σ) :
    a.finish?.map Prod.snd = a.verdict? := by
  obtain ⟨owner, arrived, stage⟩ := a
  cases stage <;> rfl

namespace Keeper

variable {τ σ : Type}

/-- The calls that were made, in order. -/
def calls (k : Keeper τ σ) : List (Call τ) := k.callers.map (·.call)

/-- What a keeper has said to calls to start. -/
def notices (k : Keeper τ σ) : List (Event τ) := k.events.filter Event.isOfStart

/-- The refreshes that the loop has asked for. -/
def rounds (k : Keeper τ σ) : List (Attempt τ σ) := k.attempts.filter Attempt.isOfLoop

end Keeper

/-- What a world is for its background loop. -/
structure Helm (τ : Type) where
  now : τ
  lifecycle : Lifecycle
  stopAsked : Bool
  loop : Option (Loop τ)
  /-- The turns of the loop in line, each with its relays. -/
  turns : Multiset Nat
  /-- When the alarms of the loop go off. -/
  dues : Multiset τ
  calls : List (Call τ)
  notices : List (Event τ)
  /-- When the loop asked for its refreshes. -/
  ticks : List τ
  /-- When those that have ended did, and what became of them. -/
  endings : List (τ × Verdict)

namespace Helm

variable {τ : Type}

/-- What became of the refreshes of the loop. -/
def verdicts (h : Helm τ) : List Verdict := h.endings.map Prod.snd

/-- A call is made. -/
def hear (c : Call τ) (h : Helm τ) : Helm τ := { h with calls := h.calls ++ [c] }

/-- Something is said to a call to start. -/
def notify (e : Event τ) (h : Helm τ) : Helm τ := { h with notices := h.notices ++ [e] }

/-- Move the loop on. -/
def setPhase (phase : LoopPhase τ) (h : Helm τ) : Helm τ :=
  { h with loop := h.loop.map fun l => { l with phase } }

/-- The loop comes to its end. -/
def endLoop (cancelled : Bool) (h : Helm τ) : Helm τ :=
  { h.setPhase (.ended cancelled) with lifecycle := .stopped }

/-- The loop gets a turn. -/
def wake (relays : Nat) (h : Helm τ) : Helm τ := { h with turns := relays ::ₘ h.turns }

/-- The loop comes into being. -/
def found (interval : τ) (h : Helm τ) : Helm τ :=
  { h with lifecycle := .running, loop := some { interval } } |>.wake 0

variable [Clock τ]

/-- The loop gets an alarm. -/
def arm (delay : τ) (h : Helm τ) : Helm τ := { h with dues := (h.now + delay) ::ₘ h.dues }

/-- The loop rests until its next tick, after a refresh that it asked for at some time. -/
def rest (interval began : τ) (h : Helm τ) : Helm τ :=
  let left := interval - (h.now - began)
  if 0 < left then if h.stopAsked then h.endLoop false else (h.setPhase .resting).arm left
  else (h.setPhase .pending).wake World.overdueRelays

/-- The loop goes on after its refresh. -/
def goOn (verdict : Verdict) (h : Helm τ) : Helm τ :=
  match h.loop with
  | some ⟨interval, .refreshing began⟩ =>
    match verdict with
    | .raised .cancelled => h.endLoop true
    | _ => h.rest interval began
  | _ => h

/-- What became of a refresh of the loop is taken down. -/
def judge (verdict : Verdict) (h : Helm τ) : Helm τ :=
  { h with endings := h.endings ++ [(h.now, verdict)] }

/-- The loop learns what became of its refresh. -/
def learn (verdict : Verdict) (h : Helm τ) : Helm τ := (h.judge verdict).goOn verdict

/-- The loop asks for a refresh. -/
def tick (h : Helm τ) : Helm τ :=
  { h.setPhase (.refreshing h.now) with ticks := h.ticks ++ [h.now] }

/-! ## Orders and moves -/

/-- What a call that starts or stops the loop does to a helm. -/
inductive Order : Call τ → Helm τ → Helm τ → Prop
  | found {h : Helm τ} (idle : h.lifecycle = .idle) (interval : τ) :
      Order (.start interval) h
        ((h.hear (.start interval)).found interval |>.notify (.started interval))
  /-- A call to start is ignored. -/
  | ignore {h : Helm τ} (busy : h.lifecycle ≠ .idle) (interval : τ) :
      Order (.start interval) h
        ((h.hear (.start interval)).notify (.startIgnored h.lifecycle))
  /-- A keeper without a loop is stopped. -/
  | retire {h : Helm τ} (none : h.loop = none) :
      Order .stop h { h.hear .stop with stopAsked := true, lifecycle := .stopped }
  /-- A loop is asked to stop that does not rest. -/
  | ask {h : Helm τ} {l : Loop τ} (there : h.loop = some l) (awake : l.phase.isResting = false) :
      Order .stop h { h.hear .stop with stopAsked := true }
  /-- A loop is asked to stop while it rests. -/
  | rouse {h : Helm τ} {interval : τ} (rests : h.loop = some ⟨interval, .resting⟩) :
      Order .stop h
        ({ h.hear .stop with stopAsked := true, dues := 0 }.setPhase .pending |>.wake 0)

/-- What else may happen to a helm. -/
inductive Move : Helm τ → Helm τ → Prop
  /-- A call is made that neither starts nor stops the loop. -/
  | call {h : Helm τ} {c : Call τ} (other : c.isOrder = false) : Move h (h.hear c)
  /-- A turn of the loop goes to the end of the line. -/
  | defer {h : Helm τ} {relays : Nat} {rest : Multiset Nat}
      (turn : h.turns = (relays + 1) ::ₘ rest) : Move h { h with turns := relays ::ₘ rest }
  /-- A loop that does not wait for it has a turn. -/
  | miss {h : Helm τ} {rest : Multiset Nat} (turn : h.turns = 0 ::ₘ rest)
      (other : ∀ l, h.loop = some l → l.phase.isPoised = false) : Move h { h with turns := rest }
  | quit {h : Helm τ} {l : Loop τ} {rest : Multiset Nat} (turn : h.turns = 0 ::ₘ rest)
      (there : h.loop = some l) (poised : l.phase.isPoised = true) (asked : h.stopAsked = true) :
      Move h ({ h with turns := rest }.endLoop false)
  /-- The loop asks for a refresh. -/
  | tick {h : Helm τ} {l : Loop τ} {rest : Multiset Nat} (turn : h.turns = 0 ::ₘ rest)
      (there : h.loop = some l) (poised : l.phase.isPoised = true)
      (unasked : h.stopAsked = false) : Move h ({ h with turns := rest }.tick)
  | learn {h : Helm τ} {interval began : τ}
      (refreshes : h.loop = some ⟨interval, .refreshing began⟩) (verdict : Verdict) :
      Move h (h.learn verdict)
  /-- An alarm of the loop goes off. -/
  | ring {h : Helm τ} {due : τ} {others : Multiset τ} (set : h.dues = due ::ₘ others) :
      Move h ({ h with now := if h.now < due then due else h.now, dues := others }.wake 0)
  | pass {h : Helm τ} {moment : τ} (later : h.now < moment) : Move h { h with now := moment }

/-- The second helm comes from the first by moves. -/
def Moves (g h : Helm τ) : Prop := Relation.ReflTransGen Move g h

theorem Moves.keeps {P : Helm τ → Prop} (move : ∀ g h, Move g h → P g → P h) {g h : Helm τ}
    (moves : g.Moves h) (first : P g) : P h := by
  unfold Moves at moves
  induction moves with
  | refl => exact first
  | tail before last ih => exact move _ _ last ih

/-- After a refresh the loop ends if that was cancelled or, where it would rest, if it has been
asked to stop; else it rests, or has a turn at once. -/
theorem goOn_cases {h : Helm τ} {interval began : τ}
    (refreshes : h.loop = some ⟨interval, .refreshing began⟩) (verdict : Verdict) :
    verdict = .raised .cancelled ∧ h.goOn verdict = h.endLoop true ∨
    verdict ≠ .raised .cancelled ∧
      (h.stopAsked = true ∧ h.goOn verdict = h.endLoop false ∨
      (∃ left, h.goOn verdict = (h.setPhase .resting).arm left) ∨
      h.goOn verdict = (h.setPhase .pending).wake World.overdueRelays) := by
  unfold goOn
  rw [refreshes]
  by_cases cancelled : verdict = .raised .cancelled
  · subst cancelled
    exact .inl ⟨rfl, rfl⟩
  · refine .inr ⟨cancelled, ?_⟩
    dsimp only
    split
    · exact absurd rfl cancelled
    · simp only [rest]
      split
      · split
        · rename_i asked
          exact .inl ⟨asked, rfl⟩
        · exact .inr (.inl ⟨_, rfl⟩)
      · exact .inr (.inr rfl)

end Helm

namespace World

variable {τ σ κ : Type}

/-- The relays of a turn of the loop. -/
def loopTurn? (turn : Turn (Target κ)) : Option Nat :=
  match turn.target with
  | .loop => some turn.relays
  | _ => none

/-- When an alarm of the loop goes off. -/
def loopDue? (alarm : Alarm τ (Target κ)) : Option τ :=
  match alarm.target with
  | .loop => some alarm.due
  | _ => none

/-- What a world is for its background loop. -/
def helm (w : World τ σ κ) : Helm τ where
  now := w.now
  lifecycle := w.state.lifecycle
  stopAsked := w.state.stopAsked
  loop := w.state.loop
  turns := w.ready.filterMap loopTurn?
  dues := w.alarms.filterMap loopDue?
  calls := w.state.calls
  notices := w.state.notices
  ticks := w.state.rounds.map Attempt.arrived
  endings := w.state.rounds.filterMap Attempt.finish?

theorem verdicts_helm (w : World τ σ κ) :
    (helm w).verdicts = w.state.rounds.filterMap Attempt.verdict? := by
  simp only [Helm.verdicts, helm, List.map_filterMap, Attempt.verdict?_of_finish?]

end World

end ApiCatalog
