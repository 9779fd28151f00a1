/-
# ApiCatalog.Proofs.Desk -- what a world is for its calls and its loop

Of a world `World.desk` keeps what its calls and its loop read and write: the
calls with their answers, and which of them have a turn in line or an alarm; the
loop, the life of the keeper and whether it has been asked to stop; the signals.
Of the refreshes it keeps only whether a snapshot is published and how many of
them the loop has asked for.

Little can happen to a desk (`Desk.Deed`).  A call that waits for the first
snapshot is answered when its turn comes, and with nothing else at the same time;
so this stands by itself (`Desk.Step.served`).
-/
import ApiCatalog.Proofs.Books
import Mathlib.Data.Multiset.Filter

namespace ApiCatalog

set_option autoImplicit false

/-- Whether the loop has come to its end. -/
def LoopPhase.isEnded {τ : Type} : LoopPhase τ → Bool
  | .ended _ => true
  | _ => false

/-- The call that takes a turn. -/
def Target.caller? {κ : Type} : Target κ → Option Nat
  | .caller id => some id
  | _ => none

/-- What a world is for its calls and its loop. -/
structure Desk (τ : Type) where
  now : τ
  lifecycle : Lifecycle
  stopAsked : Bool
  syncSignal : Bool
  stopSignal : Bool
  /-- Whether a snapshot is published. -/
  synced : Bool
  loop : Option (Loop τ)
  /-- How many refreshes the loop has asked for. -/
  loopAttempts : Nat
  callers : List (Caller τ)
  /-- The calls that have a turn in line. -/
  turns : Multiset Nat
  /-- The calls that have an alarm, each with the time of the alarm. -/
  alarms : Multiset (τ × Nat)

namespace Desk

variable {τ : Type}

/-- The calls without an answer that are of some sort. -/
def pending (d : Desk τ) (sort : Call τ → Bool) : List Nat :=
  (d.callers.zipIdx.filter fun pair => pair.1.answer.isNone && sort pair.1.call).map Prod.snd

/-- Give a turn to the calls without an answer that are of some sort. -/
def wakeAll (sort : Call τ → Bool) (d : Desk τ) : Desk τ :=
  { d with turns := d.turns + (d.pending sort : Multiset Nat) }

/-- A call waits for the first snapshot, for no longer than some time.  It has a turn if the loop
has ended or will never run. -/
def wait [Clock τ] (timeout : Option τ) (d : Desk τ) : Desk τ :=
  let id := d.callers.length
  { d with
    callers := d.callers ++ [⟨.waitForSync timeout, none⟩]
    turns := d.turns + (if d.stopSignal then [id] else [] : List Nat)
    alarms := d.alarms + (timeout.map fun span => (d.now + span, id)).toList }

/-- Answer a call. -/
def answer (id : Nat) (answer : Answer) (d : Desk τ) : Desk τ :=
  { d with callers := d.callers.modify id fun c => { c with answer := some answer } }

/-- What a call to stop is answered, if the loop has ended or will never run. -/
def stopAnswer? (d : Desk τ) : Option Answer :=
  match d.loop with
  | none => if d.lifecycle = .stopped then some .done else none
  | some ⟨_, .ended cancelled⟩ => some (if cancelled then .failed .cancelled else .done)
  | some _ => none

theorem mem_pending {d : Desk τ} {sort : Call τ → Bool} {id : Nat} :
    id ∈ d.pending sort ↔ ∃ c, d.callers[id]? = some ⟨c, none⟩ ∧ sort c = true := by
  simp only [pending, List.mem_map, List.mem_filter, Bool.and_eq_true, Option.isNone_iff_eq_none]
  constructor
  · rintro ⟨⟨⟨c, answer⟩, number⟩, ⟨place, rfl, right⟩, rfl⟩
    exact ⟨c, List.mk_mem_zipIdx_iff_getElem?.1 place, right⟩
  · rintro ⟨c, place, right⟩
    exact ⟨(⟨c, none⟩, id), ⟨List.mk_mem_zipIdx_iff_getElem?.2 place, rfl, right⟩, rfl⟩

theorem mem_turns_wakeAll {d : Desk τ} {sort : Call τ → Bool} {id : Nat} :
    id ∈ (d.wakeAll sort).turns ↔ id ∈ d.turns ∨ id ∈ d.pending sort := by
  simp [wakeAll]

/-! ## Deeds -/

/-- What may happen to a desk, the turns of calls that wait for the first snapshot apart. -/
inductive Deed [Clock τ] : Desk τ → Desk τ → Prop
  /-- A call is made. -/
  | call {d : Desk τ} {c : Call τ} (other : c.isSyncWait = false) :
      Deed d { d with callers := d.callers ++ [{ call := c }] }
  /-- A call is made to wait for the first snapshot, when there is one. -/
  | synced {d : Desk τ} (timeout : Option τ) (signalled : d.syncSignal = true) :
      Deed d { d with callers := d.callers ++ [⟨.waitForSync timeout, some (.truth true)⟩] }
  /-- A call is made to wait for the first snapshot, when there is none. -/
  | wait {d : Desk τ} (timeout : Option τ) (unsignalled : d.syncSignal = false) :
      Deed d (d.wait timeout)
  /-- A call to refresh or to start is answered. -/
  | reply {d : Desk τ} {id : Nat} {c : Caller τ} (there : d.callers[id]? = some c)
      (other : c.call.isSyncWait = false ∧ c.call.isStop = false) (answer : Answer) :
      Deed d (d.answer id answer)
  /-- A call to stop is answered. -/
  | stop {d : Desk τ} {id : Nat} {answer : Answer} (there : d.callers[id]? = some ⟨.stop, none⟩)
      (decided : d.stopAnswer? = some answer) : Deed d (d.answer id answer)
  | publish (d : Desk τ) :
      Deed d (wakeAll Call.isSyncWait { d with syncSignal := true, synced := true })
  | askStop (d : Desk τ) : Deed d { d with stopAsked := true }
  /-- A keeper without a loop is stopped. -/
  | retire {d : Desk τ} (none : d.loop = none) :
      Deed d (wakeAll Call.isSyncWait { d with lifecycle := .stopped, stopSignal := true })
  | found {d : Desk τ} (idle : d.lifecycle = .idle) (interval : τ) :
      Deed d { d with lifecycle := .running, loop := some { interval } }
  /-- The loop asks for a refresh. -/
  | tick {d : Desk τ} {l : Loop τ} (there : d.loop = some l) (running : l.phase.isEnded = false)
      (unasked : d.stopAsked = false) :
      Deed d { d with
        loop := some { l with phase := .refreshing d.now }
        loopAttempts := d.loopAttempts + 1 }
  /-- The loop goes on, without a refresh. -/
  | rest {d : Desk τ} {l : Loop τ} (there : d.loop = some l) (running : l.phase.isEnded = false)
      {phase : LoopPhase τ} (goes : phase.isEnded = false) :
      Deed d { d with loop := some { l with phase } }
  | endLoop {d : Desk τ} {l : Loop τ} (there : d.loop = some l)
      (running : l.phase.isEnded = false) (cancelled : Bool) :
      Deed d (wakeAll Call.isStop (wakeAll Call.isSyncWait { d with
        loop := some { l with phase := .ended cancelled }
        lifecycle := .stopped
        stopSignal := true }))
  /-- A call has a turn, but does not wait for the first snapshot. -/
  | drop {d : Desk τ} {id : Nat} {rest : Multiset Nat} (turn : d.turns = id ::ₘ rest)
      (other : ∀ timeout, d.callers[id]? ≠ some ⟨.waitForSync timeout, none⟩) :
      Deed d { d with turns := rest }
  /-- The alarm of a call goes off. -/
  | ring {d : Desk τ} {due : τ} {id : Nat} {others : Multiset (τ × Nat)}
      (set : d.alarms = (due, id) ::ₘ others) :
      Deed d { d with
        now := if d.now < due then due else d.now
        alarms := others
        turns := d.turns + ([id] : List Nat) }
  | pass {d : Desk τ} {moment : τ} (later : d.now < moment) : Deed d { d with now := moment }

/-- The second desk comes from the first by deeds. -/
def Deeds [Clock τ] (d e : Desk τ) : Prop := Relation.ReflTransGen Deed d e

/-- What a step of a world is for its desk. -/
inductive Step [Clock τ] : Desk τ → Desk τ → Prop
  /-- A call that waits for the first snapshot has its turn, and is told what is signalled. -/
  | served {d : Desk τ} {id : Nat} {timeout : Option τ} {rest : Multiset Nat}
      (turn : d.turns = id ::ₘ rest)
      (there : d.callers[id]? = some ⟨.waitForSync timeout, none⟩) :
      Step d (answer id (.truth d.syncSignal) { d with
        turns := rest
        alarms := d.alarms.filter fun alarm => alarm.2 ≠ id })
  | deeds {d e : Desk τ} (deeds : d.Deeds e) : Step d e

theorem callers_answer {d : Desk τ} {id number : Nat} {c : Caller τ}
    (there : d.callers[id]? = some c) (a : Answer) :
    (d.answer number a).callers[id]? =
      some (if number = id then { c with answer := some a } else c) := by
  simp only [answer, List.getElem?_modify, there]
  split <;> simp

/-- A call is one that was there, or the new one. -/
theorem old_or_new {callers : List (Caller τ)} {new c : Caller τ} {id : Nat}
    (there : (callers ++ [new])[id]? = some c) :
    callers[id]? = some c ∨ id = callers.length ∧ c = new := by
  rcases Nat.lt_or_ge id callers.length with inside | outside
  · rw [List.getElem?_append_left inside] at there
    exact .inl there
  · rw [List.getElem?_append_right outside, List.getElem?_singleton] at there
    split at there
    · cases there
      exact .inr ⟨by omega, rfl⟩
    · cases there

/-- A call after an answer is the one that was there, or the one that is answered. -/
theorem kept_or_answered {d : Desk τ} {id number : Nat} {c : Caller τ} {a : Answer}
    (there : (d.answer number a).callers[id]? = some c) :
    number ≠ id ∧ d.callers[id]? = some c ∨
      number = id ∧ ∃ before, d.callers[id]? = some before ∧ c = ⟨before.call, some a⟩ := by
  cases before : d.callers[id]? with
  | none => simp [answer, List.getElem?_modify, before] at there
  | some b =>
    rw [callers_answer before] at there
    split at there <;> cases there
    · exact .inr ⟨‹_›, b, rfl, rfl⟩
    · exact .inl ⟨‹_›, rfl⟩

/-- A deed leaves a call as it is, or answers it: one to stop at the end of the loop. -/
theorem Deed.caller [Clock τ] {d e : Desk τ} (deed : Deed d e) {id : Nat} {c : Caller τ}
    (there : d.callers[id]? = some c) :
    e.callers[id]? = some c ∨ ∃ answer, e.callers[id]? = some ⟨c.call, some answer⟩ ∧
      (c.call.isSyncWait = false ∧ c.call.isStop = false ∨
        c = ⟨.stop, none⟩ ∧ d.stopAnswer? = some answer) := by
  have append : ∀ new : List (Caller τ), (d.callers ++ new)[id]? = some c := fun new => by
    rw [List.getElem?_append_left (List.getElem?_eq_some_iff.1 there).1, there]
  cases deed with
  | call other => exact .inl (append _)
  | synced timeout signalled => exact .inl (append _)
  | wait timeout unsignalled => exact .inl (append _)
  | @reply number c' place other answer =>
    rw [callers_answer there]
    split
    · rename_i same
      rw [same, there] at place
      cases place
      exact .inr ⟨answer, rfl, .inl other⟩
    · exact .inl rfl
  | @stop number answer place decided =>
    rw [callers_answer there]
    split
    · rename_i same
      rw [same, there] at place
      cases place
      exact .inr ⟨answer, rfl, .inr ⟨rfl, decided⟩⟩
    · exact .inl rfl
  | _ => exact .inl there

/-- No deed answers a call that waits for the first snapshot. -/
theorem Deed.syncWait [Clock τ] {d e : Desk τ} (deed : Deed d e) {id : Nat} {timeout : Option τ}
    {answer : Option Answer} (there : d.callers[id]? = some ⟨.waitForSync timeout, answer⟩) :
    e.callers[id]? = some ⟨.waitForSync timeout, answer⟩ := by
  rcases deed.caller there with same | ⟨answer', -, other⟩
  · exact same
  · simp [Call.isSyncWait] at other

/-- What every deed keeps, deeds keep. -/
theorem Deeds.keeps [Clock τ] {P : Desk τ → Prop} (deed : ∀ d e, Deed d e → P d → P e)
    {d e : Desk τ} (deeds : d.Deeds e) (first : P d) : P e := by
  unfold Deeds at deeds
  induction deeds with
  | refl => exact first
  | tail before last ih => exact deed _ _ last ih

/-- No deed makes another call of a call. -/
theorem Deeds.call [Clock τ] {d e : Desk τ} (deeds : d.Deeds e) {id : Nat} {c : Caller τ}
    (there : d.callers[id]? = some c) : ∃ answer, e.callers[id]? = some ⟨c.call, answer⟩ := by
  refine deeds.keeps (P := fun d => ∃ answer, d.callers[id]? = some ⟨c.call, answer⟩) ?_
    ⟨c.answer, there⟩
  rintro d e deed ⟨answer, there⟩
  rcases deed.caller there with same | ⟨answer', answered, -⟩
  · exact ⟨answer, same⟩
  · exact ⟨some answer', answered⟩

/-- Whoever asks for a refresh is the loop, or a call to refresh. -/
def Rightful (owner : Owner) (d : Desk τ) : Prop :=
  ∀ id, owner = .caller id → ∃ answer, d.callers[id]? = some ⟨.refresh, answer⟩

theorem rightful_loop (d : Desk τ) : d.Rightful .loop := fun _ mine => nomatch mine

theorem Rightful.deeds [Clock τ] {owner : Owner} {d e : Desk τ} (rightful : d.Rightful owner)
    (deeds : d.Deeds e) : e.Rightful owner := by
  intro id mine
  obtain ⟨answer, there⟩ := rightful id mine
  exact deeds.call there

end Desk

namespace World

variable {τ σ κ : Type}

/-- What a world is for its calls and its loop. -/
def desk (w : World τ σ κ) : Desk τ where
  now := w.now
  lifecycle := w.state.lifecycle
  stopAsked := w.state.stopAsked
  syncSignal := w.state.syncSignal
  stopSignal := w.state.stopSignal
  synced := w.state.isSynced
  loop := w.state.loop
  loopAttempts := w.state.attempts.countP Attempt.isOfLoop
  callers := w.state.callers
  turns := w.ready.filterMap fun turn => turn.target.caller?
  alarms := w.alarms.filterMap fun alarm => alarm.target.caller?.map fun id => (alarm.due, id)

end World

end ApiCatalog
