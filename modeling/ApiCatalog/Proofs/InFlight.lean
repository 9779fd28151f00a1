/-
# ApiCatalog.Proofs.InFlight -- nothing takes a fetch from its way

A fetch in flight waits to be called, by a turn in line or by an alarm.  Nothing
but the fetch itself adds such a call, and nothing takes one away but its being
made: not the end of the loop, not a call to stop, not the end of other fetches
(`World.owed`).  So at any time a fetch in flight is where its source has left it,
and all the calls that it still waits for are to come (`World.Attended`,
`Reachable.attended`).
-/
import ApiCatalog.Proofs.Handover
import Mathlib.Data.Multiset.Filter

namespace ApiCatalog

set_option autoImplicit false

/-- The fetch that is called, and its token. -/
def Target.fetch? {κ : Type} : Target κ → Option (Nat × κ)
  | .fetch ticket token => some (ticket, token)
  | _ => none

namespace World

variable {τ σ κ : Type}

/-- The calls that fetches wait for. -/
def owed (w : World τ σ κ) : Multiset (Nat × κ) := w.targets.filterMap Target.fetch?

/-! ## Parts that call no fetch -/

theorem owed_modify (f : Keeper τ σ → Keeper τ σ) (w : World τ σ κ) : owed (w.modify f) = owed w :=
  rfl

theorem owed_wake_other {target : Target κ} (other : target.fetch? = none) (relays : Nat)
    (w : World τ σ κ) : owed (w.wake target relays) = owed w := by
  simp [owed, Timeline.targets, Timeline.wake, other]

theorem owed_wakeAll (ids : List Nat) (relays : Nat) (w : World τ σ κ) :
    owed (w.wakeAll (ids.map .caller) relays) = owed w := by
  simp [owed, Timeline.targets, Timeline.wakeAll, List.filterMap_map, Function.comp_def,
    Target.fetch?]

theorem owed_disarm_other [DecidableEq κ] {target : Target κ} (other : target.fetch? = none)
    (w : World τ σ κ) : owed (w.disarm target) = owed w := by
  have same := Timeline.filterMap_disarm target (fun alarm => alarm.target.fetch?)
    (fun _ => other) w
  simp only [owed, Timeline.targets, List.filterMap_append, List.filterMap_map,
    Function.comp_def, same]
  rfl

theorem owed_endLoop (cancelled : Bool) (w : World τ σ κ) :
    owed (endLoop cancelled w) = owed w := by
  simp only [endLoop, signalSyncWaiters, owed_wakeAll, owed_modify]

theorem owed_publish (snapshot : Snapshot τ) (w : World τ σ κ) :
    owed (publish snapshot w) = owed w :=
  owed_wakeAll _ _ (w.modify fun k => { k with snapshot := some snapshot, syncSignal := true })

theorem owed_judge (began : τ) (outcome : Outcome) (w : World τ σ κ) :
    owed (judge began outcome w).2 = owed w := by
  cases outcome with
  | error why =>
    simp only [judge]
    split <;> rfl
  | ok listings =>
    simp only [judge]
    split
    · exact owed_publish _ _
    · simp only
      split <;> rfl

theorem owed_release (w : World τ σ κ) : owed (release w) = owed w := by
  unfold release
  dsimp only
  split
  · rfl
  · exact owed_wake_other rfl 0 (w.modify fun k => { k with locked := false })

theorem owed_answerStop (id : Nat) (cancelled : Bool) (w : World τ σ κ) :
    owed (answerStop id cancelled w) = owed w := by
  unfold answerStop
  split <;> rfl

theorem owed_callerTurn [DecidableEq κ] (id : Nat) (w : World τ σ κ) :
    owed (callerTurn id w) = owed w := by
  unfold callerTurn
  split
  · exact owed_disarm_other rfl w
  · split
    · exact owed_answerStop _ _ _
    · rfl
  · rfl

theorem owed_startLoop (id : Nat) (interval : τ) (w : World τ σ κ) :
    owed (startLoop id interval w) = owed w := by
  unfold startLoop
  split
  · exact owed_wake_other rfl 0 _
  · rfl

theorem owed_askToStop [DecidableEq κ] (id : Nat) (w : World τ σ κ) :
    owed (askToStop id w) = owed w := by
  unfold askToStop
  dsimp only
  split
  · exact owed_wakeAll _ _ _
  · exact owed_answerStop _ _ _
  · have other : (Target.loop : Target κ).fetch? = none := rfl
    have left := owed_disarm_other other (w.modify fun k =>
      { k with stopAsked := true })
    exact (owed_wake_other other 0 _).trans left
  · rfl

section

variable [Clock τ]

theorem owed_arm_other {target : Target κ} (other : target.fetch? = none) (delay : τ)
    (w : World τ σ κ) : owed (w.arm delay target) = owed w := by
  simp [owed, Timeline.targets, Timeline.arm, other]

theorem owed_rest (interval began : τ) (w : World τ σ κ) :
    owed (rest interval began w) = owed w := by
  simp only [rest]
  split
  · split
    · exact owed_endLoop _ _
    · exact owed_arm_other rfl _ _
  · exact owed_wake_other rfl _ _

theorem owed_goOn (owner : Owner) (verdict : Verdict) (w : World τ σ κ) :
    owed (goOn owner verdict w) = owed w := by
  cases owner with
  | caller id => rfl
  | loop =>
    simp only [goOn, afterLoopRefresh]
    split
    · split
      · exact owed_rest _ _ _
      · exact owed_rest _ _ _
      · exact owed_endLoop _ _
      · exact owed_rest _ _ (say _ w)
    · rfl

theorem owed_conclude (ticket : Nat) (owner : Owner) (began : τ) (outcome : Outcome)
    (w : World τ σ κ) : owed (conclude ticket owner began outcome w) = owed w := by
  simp only [conclude]
  rw [owed_goOn, owed_release, owed_modify]
  exact owed_judge began outcome (note [.fetchEnded] w)

theorem owed_waitForSync (id : Nat) (timeout : Option τ) (w : World τ σ κ) :
    owed (waitForSync id timeout w) = owed w := by
  have woken : owed (if w.state.stopSignal then w.wake (.caller id) signalRelays else w) =
      owed w := by
    split
    · exact owed_wake_other rfl _ _
    · rfl
  unfold waitForSync
  split
  · rfl
  · dsimp only
    split
    · exact (owed_arm_other rfl _ _).trans woken
    · exact woken

theorem owed_reach (moment : τ) (w : World τ σ κ) : owed (w.reach moment) = owed w := by
  unfold Timeline.reach
  split <;> rfl

/-- An alarm that goes off becomes a turn. -/
theorem owed_ring {alarm : Alarm τ (Target κ)} {others : List (Alarm τ (Target κ))}
    {w : World τ σ κ} (set : w.alarms.Perm (alarm :: others)) :
    owed (w.ring alarm others) = owed w := by
  have targets : (w.ring alarm others).targets.Perm w.targets := by
    have alarms := set.map Alarm.target
    simp only [Timeline.targets, Timeline.ring, Timeline.reach, Timeline.wake]
    split <;> simpa using alarms.symm.append_left _
  exact Multiset.coe_eq_coe.2 (targets.filterMap _)

end

/-! ## What a fetch adds -/

variable [Clock τ]

theorem owed_follow (ticket : Nat) (p : Progress τ σ κ) (w : World τ σ κ) :
    owed (w.follow (.fetch ticket) p) =
      owed w + (p.calls : Multiset κ).map (Prod.mk ticket) := by
  have targets := (Timeline.targets_follow (Target.fetch ticket) p w).filterMap Target.fetch?
  refine (Multiset.coe_eq_coe.2 targets).trans ?_
  simp [owed, List.filterMap_append, List.filterMap_map, Function.comp_def, Target.fetch?]

theorem owed_absorb (ticket : Nat) (owner : Owner) (began : τ) (p : Progress τ σ κ)
    (w : World τ σ κ) :
    owed (absorb ticket owner began p w) =
      owed w + (p.calls : Multiset κ).map (Prod.mk ticket) := by
  unfold absorb
  dsimp only
  split
  · exact owed_follow _ _ _
  · exact (owed_conclude _ _ _ _ _).trans (owed_follow _ _ _)

end World

/-! ## What each attempt waits for -/

/-- Of some calls, those of the fetch of an attempt. -/
def callsOf {κ : Type} (n : Nat) (owed : Multiset (Nat × κ)) : Multiset κ :=
  (owed.filter fun call => call.1 = n).map Prod.snd

section

variable {κ : Type} {n m : Nat}

theorem callsOf_add (first second : Multiset (Nat × κ)) :
    callsOf n (first + second) = callsOf n first + callsOf n second := by
  simp [callsOf]

theorem callsOf_map (calls : Multiset κ) : callsOf n (calls.map (Prod.mk n)) = calls := by
  simp [callsOf, Multiset.filter_map]

theorem callsOf_map_other (other : n ≠ m) (calls : Multiset κ) :
    callsOf m (calls.map (Prod.mk n)) = 0 := by
  simp [callsOf, Multiset.filter_map, other]

end

/-- When the fetch of an attempt began. -/
def Attempt.began? {τ σ : Type} (a : Attempt τ σ) : Option τ :=
  match a.stage with
  | .queued => none
  | .fetching began _ => some began
  | .ended began _ _ _ => some began

namespace Core

variable {τ σ : Type} {c : Core τ σ} {l : Line τ σ}

/-- Where nobody holds the lock or waits for it, as many fetches were started as there are
attempts. -/
theorem Orderly.fetches_of_idle (orderly : c.Orderly l) (free : c.locked = false)
    (empty : c.queue = []) : c.fetches = c.attempts.length := by
  have current : l.current = none := by
    rw [← Option.isNone_iff_eq_none, ← Option.not_isSome, ← orderly.locked]
    exact congrArg not free
  have waiting : l.waiting = [] := by
    have queue := orderly.queue.symm.trans empty
    rwa [List.range'_eq_nil_iff, List.length_eq_zero_iff] at queue
  simp [orderly.fetches_eq, orderly.attempts, Line.attempts, current, waiting]

/-- The first in the queue of a free lock has not started, and its fetch is the next one. -/
theorem Orderly.next (orderly : c.Orderly l) (free : c.locked = false) {ticket : Nat}
    {rest : List Nat} (head : c.queue = ticket :: rest) {a : Attempt τ σ}
    (there : c.attempts[ticket]? = some a) : a.stage = .queued ∧ c.fetches = ticket := by
  obtain ⟨first, waiting, line, rfl, -⟩ := orderly.at_head free head
  have same : a = first := by
    rw [orderly.attempts, line] at there
    simpa [Line.attempts] using there.symm
  subst same
  have mem : a ∈ l.waiting := by
    rw [line]
    exact List.mem_cons_self
  refine ⟨orderly.waiting a mem, ?_⟩
  rw [orderly.fetches_eq, line]
  rfl

/-! ## What has begun goes on until it ends -/

theorem getElem?_setStage {n : Nat} {a : Attempt τ σ} (there : c.attempts[n]? = some a)
    (ticket : Nat) (stage : AttemptStage τ σ) :
    (c.setStage ticket stage).attempts[n]? =
      some (if ticket = n then { a with stage } else a) := by
  simp only [setStage, List.getElem?_modify, there]
  split <;> simp

variable [Clock τ] {d : Core τ σ}

/-- A fetch that has begun does not begin again. -/
theorem Orderly.began (orderly : c.Orderly l) (act : Act c d) {n : Nat} {a : Attempt τ σ}
    (there : c.attempts[n]? = some a) {began : τ} (begun : a.began? = some began) :
    ∃ b, d.attempts[n]? = some b ∧ b.owner = a.owner ∧ b.began? = some began := by
  cases act with
  | join admitted =>
    refine ⟨a, ?_, rfl, begun⟩
    simp only [Core.enqueue, attempts_expect]
    rw [List.getElem?_append_left (List.getElem?_eq_some_iff.1 there).1, there]
  | @start ticket rest free head work =>
    refine ⟨_, getElem?_setStage (c := c.take rest) there _ _, ?_⟩
    split
    · rename_i same
      subst same
      have queued := (orderly.next free head there).1
      simp [Attempt.began?, queued] at begun
    · exact ⟨rfl, begun⟩
  | @resume ticket owner arrived began' before there' work =>
    refine ⟨_, getElem?_setStage there _ _, ?_⟩
    split
    · rename_i same
      subst same
      cases there.symm.trans there'
      exact ⟨rfl, begun⟩
    · exact ⟨rfl, begun⟩
  | @conclude ticket owner arrived began' work there' outcome =>
    simp only [Core.conclude, attempts_goOn, settle]
    refine ⟨_, getElem?_setStage there _ _, ?_⟩
    split
    · rename_i same
      subst same
      cases there.symm.trans there'
      exact ⟨rfl, begun⟩
    · exact ⟨rfl, begun⟩
  | _ => exact ⟨a, there, rfl, begun⟩

theorem Kept.began (kept : c.Kept l) (acts : Relation.ReflTransGen Act c d) {n : Nat}
    {a : Attempt τ σ} (there : c.attempts[n]? = some a) {began : τ}
    (begun : a.began? = some began) :
    ∃ b, d.attempts[n]? = some b ∧ b.owner = a.owner ∧ b.began? = some began := by
  induction acts with
  | refl => exact ⟨a, there, rfl, begun⟩
  | tail before last ih =>
    obtain ⟨b, there', mine, begun'⟩ := ih
    obtain ⟨m, kept', -⟩ := kept.acts before
    obtain ⟨b', there'', mine', begun''⟩ := kept'.orderly.began last there' begun'
    exact ⟨b', there'', mine'.trans mine, begun''⟩

end Core

namespace Source

variable {τ σ κ : Type} (source : Source τ σ κ)

/-- An attempt that has come so far waits for these calls: for none before its fetch, and during it
for those that are left of the fetch.  Those of a fetch that has ended are of no account. -/
def Awaits (n : Nat) (calls : Multiset κ) : Option (AttemptStage τ σ) → Prop
  | some (.fetching _ work) =>
    ∃ p owed, source.Underway n p owed ∧ p.outcome = none ∧ p.work = work ∧ calls = ↑owed
  | some (.ended _ _ _ _) => True
  | _ => calls = 0

/-- Every attempt waits for those of some calls that are its own. -/
def Attends (attempts : List (Attempt τ σ)) (owed : Multiset (Nat × κ)) : Prop :=
  ∀ n, source.Awaits n (callsOf n owed) ((attempts[n]?).map (·.stage))

variable {source} {attempts : List (Attempt τ σ)} {owed : Multiset (Nat × κ)}

/-- Nothing is owed to a new attempt. -/
theorem Attends.join (attends : source.Attends attempts owed) {a : Attempt τ σ}
    (queued : a.stage = .queued) : source.Attends (attempts ++ [a]) owed := by
  intro n
  have before := attends n
  rcases Nat.lt_trichotomy n attempts.length with inside | rfl | outside
  · rwa [List.getElem?_append_left inside]
  · rw [List.getElem?_eq_none (Nat.le_refl _)] at before
    rw [List.getElem?_concat_length, Option.map_some, queued]
    exact before
  · rw [List.getElem?_eq_none (Nat.le_of_lt outside)] at before
    rw [List.getElem?_eq_none (by simpa using Nat.succ_le_of_lt outside)]
    exact before

/-- A fetch that has gone on waits for what was left and for what it asks for now. -/
theorem Attends.absorb {c : Core τ σ} {ticket : Nat} {a : Attempt τ σ}
    (there : c.attempts[ticket]? = some a)
    (others : ∀ n ≠ ticket, source.Awaits n (callsOf n owed) ((c.attempts[n]?).map (·.stage)))
    {p : Progress τ σ κ} {waits : List κ} (underway : source.Underway ticket p waits)
    (left : callsOf ticket owed + (p.calls : Multiset κ) = waits) (owner : Owner) (began : τ) :
    source.Attends (c.absorb ticket owner began p).attempts
      (owed + (p.calls : Multiset κ).map (Prod.mk ticket)) := by
  have taken (stage : AttemptStage τ σ)
      (mine : source.Awaits ticket waits (some stage)) :
      source.Attends (c.setStage ticket stage).attempts
        (owed + (p.calls : Multiset κ).map (Prod.mk ticket)) := by
    intro n
    rw [callsOf_add]
    by_cases same : n = ticket
    · subst same
      rw [callsOf_map, left, Core.setStage_there there]
      exact mine
    · rw [callsOf_map_other (Ne.symm same), Multiset.add_zero]
      simpa [Core.setStage, List.getElem?_modify, Ne.symm same] using others n same
  simp only [Core.absorb]
  cases ends : p.outcome with
  | none => exact taken _ ⟨p, waits, underway, ends, rfl, rfl⟩
  | some outcome =>
    simp only [Core.conclude, Core.attempts_goOn, Core.settle, Core.setStage,
      List.modify_modify_eq]
    exact taken (.ended began c.now outcome (Verdict.of c.strict outcome)) trivial

end Source

namespace World

variable {τ σ κ : Type} [Clock τ] {source : Source τ σ κ} {w : World τ σ κ} {l : Line τ σ}

/-- Every attempt waits for those of the calls to come that are its own. -/
def Attended (source : Source τ σ κ) (w : World τ σ κ) : Prop :=
  source.Attends w.state.attempts (owed w)

omit [Clock τ] in
theorem Attended.congr {v : World τ σ κ} (attended : Attended source v)
    (attempts : w.state.attempts = v.state.attempts) (same : owed w = owed v) :
    Attended source w := by
  unfold Attended
  rw [attempts, same]
  exact attended

/-- What the fetch of an attempt does leaves the calls of the others to come. -/
theorem attended_absorb {ticket : Nat} {a : Attempt τ σ}
    (there : w.state.attempts[ticket]? = some a)
    (others : ∀ n ≠ ticket,
      source.Awaits n (callsOf n (owed w)) ((w.state.attempts[n]?).map (·.stage)))
    {p : Progress τ σ κ} {waits : List κ} (underway : source.Underway ticket p waits)
    (left : callsOf ticket (owed w) + (p.calls : Multiset κ) = waits) (owner : Owner) (began : τ) :
    Attended source (absorb ticket owner began p w) := by
  have attempts : (absorb ticket owner began p w).state.attempts = _ :=
    (core_absorb ticket owner began p w).attempts
  unfold Attended
  rw [attempts, owed_absorb]
  exact Source.Attends.absorb (c := core w) there others underway left owner began

/-- A fetch that starts waits for what it asks for. -/
theorem attended_begin {ticket : Nat} {a : Attempt τ σ} (attended : Attended source w)
    (there : w.state.attempts[ticket]? = some a) (queued : a.stage = .queued)
    (number : w.state.fetches = ticket) (owner : Owner) :
    Attended source (begin source ticket owner w) := by
  have left : callsOf ticket (owed w) = 0 := by
    have mine := attended ticket
    rwa [there, Option.map_some, queued] at mine
  unfold begin
  dsimp only
  rw [number]
  refine attended_absorb (w := note [.fetchStarted] (say .refreshStarted
    (w.modify fun k => { k with locked := true }))) there (fun n _ => attended n) .start ?_ _ _
  exact (congrArg (· + _) left).trans (Multiset.zero_add _)

theorem attended_arrive (attended : Attended source w) (orderly : (core w).Orderly l)
    (owner : Owner) : Attended source (arrive source owner w) := by
  have joined : Attended source (w.modify fun k =>
      { k with attempts := k.attempts ++ [{ owner, arrived := w.now }] }) :=
    Source.Attends.join attended rfl
  simp only [arrive]
  split
  · rename_i free
    obtain ⟨unlocked, empty⟩ : w.state.locked = false ∧ w.state.queue = [] := by
      simpa using free
    refine attended_begin joined (a := ⟨owner, w.now, .queued⟩) (by simp [Timeline.modify]) rfl
      ?_ owner
    rw [← show w.state.fetches = w.state.attempts.length from
      orderly.fetches_of_idle unlocked empty]
    simp [Keeper.fetches, Timeline.modify, Attempt.isStarted]
  · exact joined

section

variable (attended : Attended source w) (orderly : (core w).Orderly l)

include attended

omit [Clock τ] in
/-- A call that a fetch in flight is made is one that it waits for. -/
theorem exists_underway_of_called {v : World τ σ κ} {ticket : Nat} {token : κ}
    (called : owed w = (ticket, token) ::ₘ owed v) {owner : Owner} {arrived began : τ} {work : σ}
    (there : w.state.attempts[ticket]? = some ⟨owner, arrived, .fetching began work⟩) :
    ∃ p waits left, source.Underway ticket p waits ∧ p.outcome = none ∧ p.work = work ∧
      waits.Perm (token :: left) ∧ callsOf ticket (owed v) = ↑left := by
  have mine := attended ticket
  have calls : callsOf ticket (owed w) = token ::ₘ callsOf ticket (owed v) := by
    simp [callsOf, called]
  rw [there, calls] at mine
  obtain ⟨p, waits, underway, unfinished, same, is⟩ := mine
  obtain ⟨left, rest⟩ := Quot.exists_rep (callsOf ticket (owed v))
  refine ⟨p, waits, left, underway, unfinished, same, ?_, rest.symm⟩
  rw [← rest] at is
  exact Multiset.coe_eq_coe.1 is.symm

theorem attended_fetchTurn {v : World τ σ κ} {ticket : Nat} {token : κ}
    (attempts : v.state.attempts = w.state.attempts)
    (called : owed w = (ticket, token) ::ₘ owed v) :
    Attended source (fetchTurn source ticket token v) := by
  have mine : callsOf ticket (owed w) = token ::ₘ callsOf ticket (owed v) := by
    simp [callsOf, called]
  have others : ∀ n ≠ ticket,
      source.Awaits n (callsOf n (owed v)) ((v.state.attempts[n]?).map (·.stage)) := by
    intro n other
    have before := attended n
    rw [called, ← attempts] at before
    simpa [callsOf, Ne.symm other] using before
  have waits := attended ticket
  rw [mine, ← attempts] at waits
  unfold fetchTurn
  split
  · rename_i owner arrived began work there
    obtain ⟨p, owed', left, underway, unfinished, rfl, next, rest⟩ :=
      exists_underway_of_called attended called (attempts ▸ there)
    refine attended_absorb there others (underway.resume unfinished next) ?_ owner began
    rw [rest]
    rfl
  · rename_i other
    intro n
    by_cases same : n = ticket
    · subst same
      -- nothing is owed to an attempt that does not fetch, unless it has ended
      cases place : v.state.attempts[n]? with
      | none =>
        rw [place] at waits
        exact absurd waits (Multiset.cons_ne_zero)
      | some a =>
        obtain ⟨owner, arrived, stage⟩ := a
        rw [place] at waits
        cases stage with
        | queued => exact absurd waits (Multiset.cons_ne_zero)
        | fetching began work => exact absurd place (other _ _ _ _)
        | ended => trivial
    · exact others n same

include orderly

theorem attended_attemptTurn (ticket : Nat) : Attended source (attemptTurn source ticket w) := by
  unfold attemptTurn
  split
  · rename_i head rest attempt queue there
    split
    · rename_i may
      obtain ⟨rfl, free⟩ : head = ticket ∧ w.state.locked = false := by simpa using may
      obtain ⟨queued, number⟩ := orderly.next free queue there
      exact attended_begin (w := w.modify fun k => { k with queue := rest }) attended there queued
        number _
    · exact attended
  · exact attended

theorem attended_loopTurn : Attended source (loopTurn source w) := by
  have tick : Attended source (if w.state.stopAsked then endLoop false w
      else w.modify (·.setPhase (.refreshing w.now)) |> arrive source .loop) := by
    split
    · exact attended.congr (congrArg Core.attempts (core_endLoop false w)) (owed_endLoop false w)
    · exact attended_arrive (w := w.modify (·.setPhase (.refreshing w.now))) attended
        (orderly.congr rfl rfl rfl) .loop
  unfold loopTurn
  split
  · exact tick
  · exact tick
  · exact attended

end

section

variable [DecidableEq κ]

theorem attended_act {target : Target κ} (attended : Attended source w)
    (orderly : (core w).Orderly l) (other : target.fetch? = none) :
    Attended source (act source target w) := by
  cases target with
  | loop => exact attended_loopTurn attended orderly
  | attempt ticket => exact attended_attemptTurn attended orderly ticket
  | caller id =>
    exact attended.congr (congrArg Core.attempts (core_callerTurn id w)) (owed_callerTurn id w)
  | fetch ticket token => cases other

theorem attended_runTurn {turn : Turn (Target κ)} {rest : List (Turn (Target κ))}
    (inLine : w.ready.Perm (turn :: rest)) (attended : Attended source w)
    (orderly : (core w).Orderly l) :
    Attended source (Timeline.runTurn (act source) turn { w with ready := rest }) := by
  obtain ⟨target, relays⟩ := turn
  let left : World τ σ κ := { w with ready := rest }
  have before : w.targets.Perm (target :: left.targets) :=
    (inLine.map Turn.target).append_right (w.alarms.map Alarm.target)
  cases relays with
  | succ relays =>
    -- the turn goes to the end of the line
    have after : (left.wake target relays).targets.Perm (target :: left.targets) := by
      simp only [left, Timeline.targets, Timeline.wake, List.map_append, List.map_cons,
        List.map_nil, List.append_assoc]
      exact List.perm_middle
    exact attended.congr rfl (Multiset.coe_eq_coe.2 ((after.trans before.symm).filterMap _))
  | zero =>
    have calls : owed w = ((target :: left.targets).filterMap Target.fetch? :) :=
      Multiset.coe_eq_coe.2 (before.filterMap _)
    cases fetch : target.fetch? with
    | none =>
      rw [List.filterMap_cons_none fetch] at calls
      exact attended_act (w := left) (attended.congr rfl calls.symm) orderly fetch
    | some call =>
      obtain ⟨ticket, token⟩ := call
      rw [List.filterMap_cons_some fetch] at calls
      have mine : target = .fetch ticket token := by
        cases target <;> simp [Target.fetch?] at fetch
        obtain ⟨rfl, rfl⟩ := fetch
        rfl
      subst mine
      exact attended_fetchTurn (v := left) attended rfl calls

omit [Clock τ] [DecidableEq κ] in
theorem attempts_startLoop (id : Nat) (interval : τ) (w : World τ σ κ) :
    (startLoop id interval w).state.attempts = w.state.attempts := by
  unfold startLoop
  split <;> rfl

omit [Clock τ] in
theorem attempts_askToStop (id : Nat) (w : World τ σ κ) :
    (askToStop id w).state.attempts = w.state.attempts := by
  unfold askToStop answerStop
  dsimp only
  split
  · rfl
  · split <;> rfl
  · rfl
  · rfl

omit [DecidableEq κ] in
theorem attempts_waitForSync (id : Nat) (timeout : Option τ) (w : World τ σ κ) :
    (waitForSync id timeout w).state.attempts = w.state.attempts := by
  unfold waitForSync
  split
  · rfl
  · split <;> split <;> rfl

theorem attended_call (c : Call τ) (attended : Attended source w)
    (orderly : (core w).Orderly l) : Attended source (call source c w) := by
  let called : World τ σ κ := w.modify fun k => { k with callers := k.callers ++ [{ call := c }] }
  have kept : Attended source called := attended
  unfold call
  cases c with
  | refresh => exact attended_arrive (w := called) attended (orderly.congr rfl rfl rfl) _
  | start interval =>
    exact kept.congr (attempts_startLoop _ _ _) (owed_startLoop _ _ _)
  | stop => exact kept.congr (attempts_askToStop _ _) (owed_askToStop _ _)
  | waitForSync timeout =>
    exact kept.congr (attempts_waitForSync _ _ _) (owed_waitForSync _ _ _)

theorem attended_of_step {v : World τ σ κ} (step : Step source v w) (attended : Attended source v)
    (orderly : (core v).Orderly l) : Attended source w := by
  cases step with
  | call c => exact attended_call c attended orderly
  | turn inLine => exact attended_runTurn inLine attended orderly
  | @ring alarm others set =>
    refine attended.congr ?_ (owed_ring set)
    simp only [Timeline.ring, Timeline.reach, Timeline.wake]
    split <;> rfl
  | pass moment =>
    refine attended.congr ?_ (owed_reach moment v)
    unfold Timeline.reach
    split <;> rfl

/-- In every reachable world the calls that a fetch in flight waits for are to come. -/
theorem Reachable.attended {strict : Bool} (reached : Reachable source strict w) :
    Attended source w := by
  have both : Reachable source strict w ∧ Attended source w := by
    refine Run.keeps (P := fun u => Reachable source strict u ∧ Attended source u) ?_ reached
      ⟨.refl _, fun n => rfl⟩
    rintro v u step ⟨reached, attended⟩
    obtain ⟨l, sound⟩ := reached.sound
    exact ⟨reached.run ((Run.refl v).step step),
      attended_of_step step attended sound.kept.orderly⟩
  exact both.2

/-- How a fetch that began at a time has come on.  It waits for the calls that are left of it, and
these are to come; or it has ended as its source lets it, was judged by that, and is the next one in
the course of what is shown. -/
def Pursues (source : Source τ σ κ) (strict : Bool) (w : World τ σ κ) (n : Nat) (began : τ) :
    AttemptStage τ σ → Prop
  | .queued => False
  | .fetching since work => since = began ∧ ∃ p waits, source.Underway n p waits ∧
      p.outcome = none ∧ p.work = work ∧ callsOf n (owed w) = ↑waits
  | .ended since _ outcome verdict => since = began ∧ source.Yields n outcome ∧
      verdict = Verdict.of strict outcome ∧
      w.state.course.take (n + 1) = w.state.course.take n ++ [(began, outcome)]

variable {strict : Bool} {v : World τ σ κ}

/-- A fetch that has begun goes on until it ends. -/
theorem Reachable.pursues (reached : Reachable source strict v) (onward : Run source v w) {n : Nat}
    {a : Attempt τ σ} (there : v.state.attempts[n]? = some a) {began : τ}
    (begun : a.began? = some began) :
    ∃ b, w.state.attempts[n]? = some b ∧ b.owner = a.owner ∧
      Pursues source strict w n began b.stage := by
  obtain ⟨l, sound⟩ := reached.sound
  obtain ⟨m, sound'⟩ := (reached.run onward).sound
  obtain ⟨b, there', mine, begun'⟩ :=
    sound.kept.began (Core.acts_of_moves (moves_of_run onward)) there begun
  have place : w.state.attempts[n]? = some b := there'
  refine ⟨b, place, mine, ?_⟩
  have waits := (reached.run onward).attended n
  have follows := sound'.faithful n b there'
  have judged := sound'.judged (List.mem_of_getElem? there')
  rw [place] at waits
  obtain ⟨owner, arrived, stage⟩ := b
  cases stage with
  | queued => cases begun'
  | fetching since work => exact ⟨Option.some.inj begun', waits⟩
  | ended since ended outcome verdict =>
    cases begun'
    exact ⟨rfl, follows, Option.some.inj judged,
      sound'.kept.orderly.take_course there' rfl⟩

omit [Clock τ] [DecidableEq κ] in
/-- Where nothing is left to come, a fetch that waits for calls as long as it goes on has ended. -/
theorem Pursues.isEnded {n : Nat} {began : τ} {a : Attempt τ σ}
    (pursues : Pursues source strict w n began a.stage)
    (waits : ∀ {p calls}, source.Underway n p calls → p.outcome = none → calls ≠ [])
    (line : w.ready = []) (alarms : w.alarms = []) : a.isEnded = true := by
  obtain ⟨owner, arrived, stage⟩ := a
  cases stage with
  | queued => exact pursues.elim
  | ended since ended outcome verdict => rfl
  | fetching since work =>
    obtain ⟨-, p, calls, underway, unfinished, -, left⟩ := pursues
    have none : callsOf n (owed w) = 0 := by
      simp [owed, Timeline.targets, line, alarms, callsOf]
    rw [none] at left
    exact absurd ((Multiset.coe_eq_zero calls).1 left.symm) (waits underway unfinished)

end

end World

end ApiCatalog
