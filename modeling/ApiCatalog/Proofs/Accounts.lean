/-
# ApiCatalog.Proofs.Accounts -- what is counted and said of refreshes

A refresh is counted, timed and spoken of at many places: where it starts, where
the end of its fetch is judged, where the lock is released, and where the loop
goes on.  `Account.after` says what they add, all together, for an attempt that
has come so far.

Refreshes are made one at a time.  So what a keeper has counted and said of them
is what it adds for one attempt after the other, in the order of arrival
(`World.Audited`, `Reachable.audited`), and nothing else adds to it.
-/
import ApiCatalog.Proofs.InFlight

namespace ApiCatalog

set_option autoImplicit false

/-! ## What is said -/

/-- Whether an event is about a refresh. -/
def Event.isOfRefresh {τ : Type} : Event τ → Bool
  | .startIgnored _ | .started _ | .stopped => false
  | _ => true

/-- What the loop says of a failure of its own refresh. -/
def Event.ofFailure {τ : Type} (why : Failure) : Event τ :=
  if why.isBreach then .contractViolated why else .refreshCrashed why

theorem Event.isOfRefresh_ofFailure {τ : Type} (why : Failure) :
    (ofFailure why : Event τ).isOfRefresh = true := by
  unfold ofFailure
  split <;> rfl

/-- The event that a note takes down, if it does. -/
def Note.event? {τ : Type} : Note τ → Option (Event τ)
  | .event e => some e
  | _ => none

namespace Keeper

variable {τ σ : Type}

/-- All that a keeper has said. -/
def events (k : Keeper τ σ) : List (Event τ) := k.journal.filterMap Note.event?

/-- What a keeper has said of its refreshes. -/
def said (k : Keeper τ σ) : List (Event τ) := k.events.filter Event.isOfRefresh

theorem said_note (k : Keeper τ σ) (notes : List (Note τ)) :
    (k.note notes).said = k.said ++ (notes.filterMap Note.event?).filter Event.isOfRefresh := by
  simp [said, events, note]

/-- A loop is busy while it waits for its own refresh. -/
theorem refreshing_of_loopBusy {k : Keeper τ σ} (busy : k.loopBusy = true) :
    ∃ interval began, k.loop = some ⟨interval, .refreshing began⟩ := by
  cases loop : k.loop with
  | none => simp [loopBusy, loop] at busy
  | some l =>
    obtain ⟨interval, phase⟩ := l
    cases phase with
    | refreshing began => exact ⟨interval, began, rfl⟩
    | _ => simp [loopBusy, LoopPhase.isRefreshing, loop] at busy

end Keeper

/-! ## Accounts -/

/-- What is counted, timed and said of refreshes. -/
structure Account (τ : Type) where
  meters : Meters τ := {}
  said : List (Event τ) := []

namespace Account

variable {τ σ : Type}

/-- Something is said. -/
def say (e : Event τ) (x : Account τ) : Account τ := { x with said := x.said ++ [e] }

/-- The loop reports failures of its own refreshes. -/
def report (failures : List Failure) (x : Account τ) : Account τ :=
  { x with said := x.said ++ failures.map .ofFailure }

/-- A refresh is timed. -/
def time (span : τ) (x : Account τ) : Account τ :=
  { x with meters := { x.meters with durations := x.meters.durations ++ [span] } }

/-- A snapshot is published: the gauges show it. -/
def publish (s : Snapshot τ) (x : Account τ) : Account τ :=
  { x with
    meters := { x.meters with
      groupVersions := some s.groupVersions.size
      resources := some s.resourceCount
      synced := some 1
      lastSuccess := some s.fetchedAt
      successes := x.meters.successes + 1 } }
    |>.say (.snapshotPublished s.groupVersions.size s.resourceCount)

/-- A fetch has failed. -/
def fail (why : Failure) (x : Account τ) : Account τ :=
  { x with meters := { x.meters with failures := x.meters.failures + 1 } }
    |>.say (.refreshFailed why)

/-- A contract was broken. -/
def breach (x : Account τ) : Account τ :=
  { x with meters := { x.meters with breaches := x.meters.breaches + 1 } }

/-- The end of a fetch is judged. -/
def judge (strict : Bool) (began : τ) (outcome : Outcome) (x : Account τ) : Account τ :=
  match outcome with
  | .error why => if why.isCancelled then x else x.fail why
  | .ok listings =>
    match (Snapshot.index strict listings).result with
    | .ok entries => x.publish ⟨entries, began⟩
    | .error why => if why.isBreach then x.breach else x

/-- The account after one more attempt, which may not have come to its end yet. -/
def after [Sub τ] (strict : Bool) (x : Account τ) (a : Attempt τ σ) : Account τ :=
  match a.stage with
  | .queued => x
  | .fetching _ _ => x.say .refreshStarted
  | .ended began ended outcome _ =>
    (x.say .refreshStarted).judge strict began outcome |>.time (ended - began) |>.report a.report

/-- The account of some attempts, one after the other. -/
def replay [Sub τ] (strict : Bool) (attempts : List (Attempt τ σ)) : Account τ :=
  attempts.foldl (after strict) {}

section

variable [Sub τ] (strict : Bool)

theorem replay_append_singleton (attempts : List (Attempt τ σ)) (a : Attempt τ σ) :
    replay strict (attempts ++ [a]) = (replay strict attempts).after strict a := by
  simp [replay]

/-- Nothing is counted or said of those that wait. -/
theorem replay_append_of_queued {waiting : List (Attempt τ σ)}
    (queued : ∀ a ∈ waiting, a.stage = .queued) (attempts : List (Attempt τ σ)) :
    replay strict (attempts ++ waiting) = replay strict attempts := by
  induction waiting generalizing attempts with
  | nil => rw [List.append_nil]
  | cons a rest ih =>
    have first : a.stage = .queued := queued a List.mem_cons_self
    have step : (replay strict attempts).after strict a = replay strict attempts := by
      simp [after, first]
    rw [← List.singleton_append, ← List.append_assoc,
      ih (fun b mem => queued b (List.mem_cons_of_mem a mem)), replay_append_singleton, step]

/-- The last attempt that counts is the one before those that wait. -/
theorem replay_line {ended waiting : List (Attempt τ σ)} {a : Attempt τ σ}
    (queued : ∀ b ∈ waiting, b.stage = .queued) :
    replay strict (ended ++ a :: waiting) = (replay strict ended).after strict a := by
  rw [← List.singleton_append, ← List.append_assoc, replay_append_of_queued strict queued,
    replay_append_singleton]

end

end Account

namespace World

variable {τ σ κ : Type}

/-- What a keeper has counted, timed and said of its refreshes. -/
def account (w : World τ σ κ) : Account τ := ⟨w.state.meters, w.state.said⟩

/-! ## What the parts of a step add -/

theorem account_note (notes : List (Note τ)) (w : World τ σ κ) :
    account (note notes w) =
      { account w with
        said := (account w).said ++ (notes.filterMap Note.event?).filter Event.isOfRefresh } := by
  simp only [account, note, Timeline.modify, Keeper.said_note]
  rfl

/-- A note that is no event adds nothing. -/
theorem account_note_other {notes : List (Note τ)} (other : ∀ n ∈ notes, n.event? = none)
    (w : World τ σ κ) : account (note notes w) = account w := by
  rw [account_note, List.filterMap_eq_nil_iff.2 other]
  simp

theorem account_say {e : Event τ} (ofRefresh : e.isOfRefresh = true) (w : World τ σ κ) :
    account (say e w) = (account w).say e := by
  simp [say, account_note, Account.say, Note.event?, ofRefresh]

theorem account_say_other {e : Event τ} (other : e.isOfRefresh = false) (w : World τ σ κ) :
    account (say e w) = account w := by
  simp [say, account_note, Note.event?, other]

theorem account_endLoop (cancelled : Bool) (w : World τ σ κ) :
    account (endLoop cancelled w) = account w := rfl

theorem account_publish (s : Snapshot τ) (w : World τ σ κ) :
    account (publish s w) = (account w).publish s := by
  rw [publish, account_say rfl]
  rfl

theorem account_recordFailure (why : Failure) (w : World τ σ κ) :
    account (recordFailure why w) = (account w).fail why := by
  rw [recordFailure, account_say rfl]
  rfl

theorem account_recordBreach (why : Failure) (w : World τ σ κ) :
    account (recordBreach why w) = (account w).breach := rfl

theorem account_remarks (remarks : List Snapshot.Remark) (w : World τ σ κ) :
    account (note (remarks.map .indexing) w) = account w := by
  refine account_note_other (fun n mem => ?_) w
  obtain ⟨remark, -, rfl⟩ := List.mem_map.1 mem
  rfl

theorem account_judge (began : τ) (outcome : Outcome) (w : World τ σ κ) :
    account (judge began outcome w).2 = (account w).judge w.state.strict began outcome := by
  cases outcome with
  | error why =>
    simp only [judge, Account.judge]
    split
    · rfl
    · exact account_recordFailure why w
  | ok listings =>
    have remarked := account_remarks (Snapshot.index w.state.strict listings).remarks w
    simp only [judge, Account.judge]
    cases (Snapshot.index w.state.strict listings).result with
    | ok entries => simp only [account_publish, remarked]
    | error why =>
      simp only
      split
      · rw [account_recordBreach, remarked]
      · exact remarked

theorem account_release (w : World τ σ κ) : account (release w) = account w := by
  unfold release
  dsimp only
  split <;> rfl

theorem account_answerStop (id : Nat) (cancelled : Bool) (w : World τ σ κ) :
    account (answerStop id cancelled w) = account w := by
  unfold answerStop
  split
  · rfl
  · exact account_say_other rfl w

theorem account_callerTurn [DecidableEq κ] (id : Nat) (w : World τ σ κ) :
    account (callerTurn id w) = account w := by
  unfold callerTurn
  split
  · rfl
  · split
    · exact account_answerStop _ _ _
    · rfl
  · rfl

theorem account_startLoop (id : Nat) (interval : τ) (w : World τ σ κ) :
    account (startLoop id interval w) = account w := by
  unfold startLoop
  dsimp only
  split
  · exact account_say_other rfl (Timeline.wake .loop 0 _)
  · exact account_say_other rfl w

theorem account_askToStop [DecidableEq κ] (id : Nat) (w : World τ σ κ) :
    account (askToStop id w) = account w := by
  unfold askToStop
  dsimp only
  split
  · rfl
  · exact account_answerStop _ _ _
  · rfl
  · rfl

variable [Clock τ]

theorem account_waitForSync (id : Nat) (timeout : Option τ) (w : World τ σ κ) :
    account (waitForSync id timeout w) = account w := by
  unfold waitForSync
  split
  · rfl
  · split <;> split <;> rfl

theorem account_rest (interval began : τ) (w : World τ σ κ) :
    account (rest interval began w) = account w := by
  simp only [rest]
  split
  · split <;> rfl
  · rfl

/-- A loop that waits for its refresh reports a failure of it. -/
theorem account_afterLoopRefresh {w : World τ σ κ} (busy : w.state.loopBusy = true)
    (verdict : Verdict) :
    account (afterLoopRefresh verdict w) = (account w).report verdict.report := by
  have silent : (account w).report [] = account w := by simp [Account.report]
  obtain ⟨interval, began, loop⟩ := Keeper.refreshing_of_loopBusy busy
  cases verdict with
  | published => simpa [afterLoopRefresh, loop, Verdict.report, silent] using account_rest ..
  | kept why => simpa [afterLoopRefresh, loop, Verdict.report, silent] using account_rest ..
  | raised why =>
    by_cases cancelled : why = .cancelled
    · subst cancelled
      simpa [afterLoopRefresh, loop, Verdict.report, silent] using account_endLoop true w
    · rw [afterLoopRefresh_raised cancelled loop, report_raised cancelled, account_rest]
      exact account_say (Event.isOfRefresh_ofFailure why) w

/-- What the owner of an attempt that has ended has to report. -/
def reportOf (owner : Owner) (verdict : Verdict) : List Failure :=
  match owner with
  | .loop => verdict.report
  | .caller _ => []

theorem account_goOn {owner : Owner} {w : World τ σ κ}
    (busy : owner = .loop → w.state.loopBusy = true) (verdict : Verdict) :
    account (goOn owner verdict w) = (account w).report (reportOf owner verdict) := by
  cases owner with
  | loop => exact account_afterLoopRefresh (busy rfl) verdict
  | caller id => simp [goOn, reportOf, Account.report, account, Timeline.modify, Keeper.answer,
      Keeper.said, Keeper.events]

omit [Clock τ] in
/-- An attempt that has ended is timed, and the lock is released. -/
theorem account_settled (ticket : Nat) (stage : AttemptStage τ σ) (span : τ) (w : World τ σ κ) :
    account (release (w.modify fun k =>
      { k.setStage ticket stage with
        meters := { k.meters with durations := k.meters.durations ++ [span] } })) =
      (account w).time span :=
  account_release _

theorem account_conclude {owner : Owner} {w : World τ σ κ}
    (busy : owner = .loop → w.state.loopBusy = true) (ticket : Nat) (began : τ)
    (outcome : Outcome) :
    account (conclude ticket owner began outcome w) =
      ((account w).judge w.state.strict began outcome |>.time (w.now - began) |>.report
        (reportOf owner (Verdict.of w.state.strict outcome))) := by
  have judged := account_judge began outcome (note [.fetchEnded] w)
  have same := core_judge began outcome (note [.fetchEnded] w)
  rw [account_note_other (by simp [Note.event?])] at judged
  simp only [conclude, judge_fst]
  generalize (judge began outcome (note [.fetchEnded] w)).2 = v at judged same ⊢
  have now : v.now = w.now := congrArg Core.now same
  have waits : owner = .loop → v.state.loopBusy = true := fun mine =>
    (congrArg Core.loopBusy same).trans (busy mine)
  rw [account_goOn, account_settled, judged, now]
  · rfl
  · intro mine
    rw [← waits mine]
    exact congrArg Core.loopBusy
      (core_settled _ _ (fun m => { m with durations := m.durations ++ [v.now - began] }) v)

/-! ## Refreshes -/

/-- What a keeper has counted and said is what it adds for one attempt after the other. -/
def Audited (strict : Bool) (w : World τ σ κ) : Prop :=
  account w = Account.replay strict w.state.attempts

variable {source : Source τ σ κ} {strict : Bool} {w : World τ σ κ} {l : Line τ σ}

omit [Clock τ] in
/-- What a source notes is not said by the keeper. -/
theorem account_taken (ticket : Nat) (stage : AttemptStage τ σ) (notes : List (SourceNote τ))
    (w : World τ σ κ) :
    account (w.modify fun k => (k.setStage ticket stage).note (notes.map .source)) =
      account w := by
  refine account_note_other (fun n mem => ?_) (w.modify (·.setStage ticket stage))
  obtain ⟨m, -, rfl⟩ := List.mem_map.1 mem
  rfl

theorem account_follow {ω : Type} (lift : κ → Target κ) (p : Progress τ ω κ) (w : World τ σ κ) :
    account (w.follow lift p) = account w := by
  rw [Timeline.follow_eq]
  rfl

theorem Audited.congr {v : World τ σ κ} (audited : Audited strict v)
    (attempts : w.state.attempts = v.state.attempts) (same : account w = account v) :
    Audited strict w := by
  unfold Audited
  rw [same, attempts]
  exact audited

section

variable {ended waiting : List (Attempt τ σ)} {a : Attempt τ σ}
  (attempts : w.state.attempts = ended ++ a :: waiting)
  (queued : ∀ b ∈ waiting, b.stage = .queued) (is : w.state.strict = strict)
  (busy : a.owner = .loop → w.state.loopBusy = true)

include attempts

omit [Clock τ] in
theorem attempts_setStage (stage : AttemptStage τ σ) :
    ((core w).setStage ended.length stage).attempts = ended ++ { a with stage } :: waiting := by
  simp only [Core.setStage, core, attempts, Core.modify_after]

include queued is busy

/-- The end of an attempt adds what belongs to its end. -/
theorem audited_conclude (before : account w = (Account.replay strict ended).say .refreshStarted)
    (began : τ) (outcome : Outcome) :
    Audited strict (conclude ended.length a.owner began outcome w) := by
  have moved : (conclude ended.length a.owner began outcome w).state.attempts = _ :=
    (core_conclude ended.length a.owner began outcome w).attempts
  have report : ({ a with stage := .ended began w.now outcome (Verdict.of strict outcome) } :
      Attempt τ σ).report = reportOf a.owner (Verdict.of strict outcome) := by
    cases a.owner <;> rfl
  have place := attempts_setStage attempts (.ended began w.now outcome (Verdict.of strict outcome))
  unfold Audited
  rw [moved, Core.conclude, Core.attempts_goOn, account_conclude busy, is, before]
  simp only [Core.settle]
  rw [show (core w).strict = strict from is, show (core w).now = w.now from rfl, place,
    Account.replay_line strict queued]
  simp only [Account.after, report]

/-- What the fetch of an attempt does adds what belongs to the attempt. -/
theorem audited_absorb (before : account w = (Account.replay strict ended).say .refreshStarted)
    (began : τ) (p : Progress τ σ κ) :
    Audited strict (absorb ended.length a.owner began p w) := by
  let taken : World τ σ κ := (w.modify fun k =>
    (k.setStage ended.length (.fetching began p.work)).note (p.notes.map .source)).follow
      (.fetch ended.length) p
  have same : core taken = (core w).setStage ended.length (.fetching began p.work) := by
    rw [core_follow, core_taken]
  have place : taken.state.attempts =
      ended ++ { a with stage := .fetching began p.work } :: waiting :=
    (congrArg Core.attempts same).trans (attempts_setStage attempts _)
  have adds : account taken = (Account.replay strict ended).say .refreshStarted := by
    rw [account_follow, account_taken, before]
  unfold absorb
  cases p.outcome with
  | none =>
    show Audited strict taken
    rw [Audited, adds, place, Account.replay_line strict queued]
    rfl
  | some outcome =>
    refine audited_conclude place queued ((congrArg Core.strict same).trans is) ?_ adds began
      outcome
    intro mine
    exact (congrArg Core.loopBusy same).trans (busy mine)

/-- The start of a fetch is said, and what it does at once is added. -/
theorem audited_begin (before : account w = Account.replay strict ended) :
    Audited strict (begin source ended.length a.owner w) := by
  unfold begin
  refine audited_absorb (w := note [.fetchStarted] (say .refreshStarted
    (w.modify fun k => { k with locked := true }))) attempts queued is busy ?_ _ _
  rw [account_note_other (by simp [Note.event?]), account_say rfl, ← before]
  rfl

end

/-! ## Steps -/

theorem audited_arrive (audited : Audited strict w) (is : w.state.strict = strict)
    {owner : Owner} (busy : owner = .loop → w.state.loopBusy = true) :
    Audited strict (arrive source owner w) := by
  simp only [arrive]
  split
  · let joined : World τ σ κ := w.modify fun k =>
      { k with attempts := k.attempts ++ [{ owner, arrived := w.now }] }
    have attempts : joined.state.attempts =
        w.state.attempts ++ ⟨owner, w.now, .queued⟩ :: [] := rfl
    exact audited_begin attempts (by simp) is busy audited
  · show account w = Account.replay strict (w.state.attempts ++ [⟨owner, w.now, .queued⟩])
    rw [Account.replay_append_singleton]
    exact audited

section

variable (audited : Audited strict w) (sound : (core w).Sound source strict l)

include audited sound

theorem audited_attemptTurn (ticket : Nat) : Audited strict (attemptTurn source ticket w) := by
  have kept := sound.kept
  unfold attemptTurn
  split
  · rename_i head rest attempt queue there
    split
    · rename_i may
      obtain ⟨rfl, free⟩ : head = ticket ∧ w.state.locked = false := by simpa using may
      obtain ⟨rfl, pending, waiting, attempts, queued⟩ := kept.orderly.split_head free queue there
      refine audited_begin (w := w.modify fun k => { k with queue := rest }) attempts
        (fun b mem => queued b (List.mem_cons_of_mem _ mem)) sound.strict
        (kept.told.loopBusy_of_pending pending) (audited.trans ?_)
      rw [show w.state.attempts = _ from attempts, Account.replay_append_of_queued strict queued]
    · exact audited
  · exact audited

theorem audited_fetchTurn (ticket : Nat) (token : κ) :
    Audited strict (fetchTurn source ticket token w) := by
  have kept := sound.kept
  unfold fetchTurn
  split
  · rename_i owner arrived began work there
    obtain ⟨rfl, pending, attempts⟩ := kept.orderly.split_current there rfl
    refine audited_absorb attempts kept.orderly.waiting sound.strict
      (kept.told.loopBusy_of_pending pending) (audited.trans ?_) began _
    rw [show w.state.attempts = _ from attempts, Account.replay_line strict kept.orderly.waiting]
    rfl
  · exact audited

theorem audited_loopTurn : Audited strict (loopTurn source w) := by
  have tick {loop : Loop τ} (there : w.state.loop = some loop) :
      Audited strict (if w.state.stopAsked then endLoop false w
        else w.modify (·.setPhase (.refreshing w.now)) |> arrive source .loop) := by
    split
    · exact audited.congr (congrArg Core.attempts (core_endLoop false w)) (account_endLoop false w)
    · refine audited_arrive (w := w.modify (·.setPhase (.refreshing w.now))) audited sound.strict ?_
      intro _
      simp [Timeline.modify, Keeper.setPhase, Keeper.loopBusy, LoopPhase.isRefreshing, there]
  unfold loopTurn
  split
  · rename_i there
    exact tick there
  · rename_i there
    exact tick there
  · exact audited

variable [DecidableEq κ]

theorem audited_act (target : Target κ) : Audited strict (act source target w) := by
  cases target with
  | loop => exact audited_loopTurn audited sound
  | attempt ticket => exact audited_attemptTurn audited sound ticket
  | fetch ticket token => exact audited_fetchTurn audited sound ticket token
  | caller id =>
    exact audited.congr (congrArg Core.attempts (core_callerTurn id w)) (account_callerTurn id w)

theorem audited_call (c : Call τ) : Audited strict (call source c w) := by
  let called : World τ σ κ := w.modify fun k => { k with callers := k.callers ++ [{ call := c }] }
  have kept : Audited strict called := audited
  unfold call
  cases c with
  | refresh => exact audited_arrive (w := called) kept sound.strict (fun mine => nomatch mine)
  | start interval => exact kept.congr (attempts_startLoop _ _ _) (account_startLoop _ _ _)
  | stop => exact kept.congr (attempts_askToStop _ _) (account_askToStop _ _)
  | waitForSync timeout =>
    exact kept.congr (attempts_waitForSync _ _ _) (account_waitForSync _ _ _)

end

theorem audited_of_step [DecidableEq κ] {v : World τ σ κ} (step : Step source v w)
    (audited : Audited strict v) (sound : (core v).Sound source strict l) : Audited strict w := by
  cases step with
  | call c => exact audited_call audited sound c
  | @turn turn rest inLine =>
    obtain ⟨target, relays⟩ := turn
    cases relays with
    | zero => exact audited_act (w := { v with ready := rest }) audited sound target
    | succ relays => exact audited
  | @ring alarm others set =>
    simp only [Timeline.ring, Timeline.reach, Timeline.wake]
    split <;> exact audited
  | pass moment =>
    unfold Timeline.reach
    split <;> exact audited

/-- In every reachable world, what is counted and said of refreshes is what the attempts add, one
after the other. -/
theorem Reachable.audited [DecidableEq κ] (reached : Reachable source strict w) :
    Audited strict w := by
  have both : Reachable source strict w ∧ Audited strict w := by
    refine Run.keeps (P := fun u => Reachable source strict u ∧ Audited strict u) ?_ reached
      ⟨.refl _, rfl⟩
    rintro v u step ⟨reached, audited⟩
    obtain ⟨l, sound⟩ := reached.sound
    exact ⟨reached.run ((Run.refl v).step step), audited_of_step step audited sound⟩
  exact both.2

end World

end ApiCatalog
