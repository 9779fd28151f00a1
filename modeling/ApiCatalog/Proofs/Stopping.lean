/-
# ApiCatalog.Proofs.Stopping -- the loop after it has been asked to stop

A loop that has been asked to stop asks for no refresh any more (`Desk.Ceased`), so
all that it can still fetch is what it asked for before.  That is one refresh at
most, since it waits for the end of each (`Core.Told.busy`), and none that has
started already starts again (`Reachable.pursues`).

`stop_right` says what this leaves, for each place where the loop can be.
-/
import ApiCatalog.Proofs.InFlight
import ApiCatalog.Proofs.Tidy

namespace ApiCatalog

set_option autoImplicit false

namespace Keeper

variable {τ σ : Type}

/-- The number of refreshes that the loop has asked for. -/
def loopAttempts (k : Keeper τ σ) : Nat := k.attempts.countP Attempt.isOfLoop

/-- The number of fetches that were started for the loop. -/
def loopFetches (k : Keeper τ σ) : Nat :=
  k.attempts.countP fun a => a.isOfLoop && a.isStarted

theorem loopFetches_le (k : Keeper τ σ) : k.loopFetches ≤ k.loopAttempts :=
  List.countP_mono_left fun _ _ both => (Bool.and_eq_true_iff.1 both).1

/-- Where all its refreshes have started, the loop has made as many fetches. -/
theorem loopFetches_of_isStarted {k : Keeper τ σ}
    (started : ∀ a ∈ k.attempts, a.isOfLoop = true → a.isStarted = true) :
    k.loopFetches = k.loopAttempts := by
  refine List.countP_congr fun a mem => ?_
  simp only [Bool.and_eq_true]
  exact ⟨And.left, fun mine => ⟨mine, started a mem mine⟩⟩

end Keeper

theorem Attempt.isOfLoop_iff {τ σ : Type} {a : Attempt τ σ} :
    a.isOfLoop = true ↔ a.owner = .loop := by
  cases owner : a.owner <;> simp [Attempt.isOfLoop, owner]

theorem Attempt.isStarted_iff {τ σ : Type} {a : Attempt τ σ} :
    a.isStarted = true ↔ ∃ began, a.began? = some began := by
  obtain ⟨owner, arrived, stage⟩ := a
  cases stage <;> simp [isStarted, began?]

/-- What counts at its place in one list counts at the same place in the other. -/
theorem countP_le_of_getElem? {α β : Type} {p : α → Bool} {q : β → Bool} {xs : List α}
    {ys : List β} (each : ∀ (n : Nat) x, xs[n]? = some x → p x = true →
      ∃ y, ys[n]? = some y ∧ q y = true) :
    xs.countP p ≤ ys.countP q := by
  induction xs generalizing ys with
  | nil => exact Nat.zero_le _
  | cons x xs ih =>
    cases ys with
    | nil =>
      have none : (x :: xs).countP p = 0 := by
        refine List.countP_eq_zero.2 fun y mem counts => ?_
        obtain ⟨n, there⟩ := List.mem_iff_getElem?.1 mem
        obtain ⟨z, nowhere, -⟩ := each n y there counts
        cases nowhere
      rw [none]
      exact Nat.zero_le _
    | cons y ys =>
      have rest : xs.countP p ≤ ys.countP q := ih fun n => each (n + 1)
      rw [List.countP_cons, List.countP_cons]
      by_cases counts : p x = true
      · obtain ⟨z, same, counts'⟩ := each 0 x rfl counts
        cases same
        rw [if_pos counts, if_pos counts']
        exact Nat.add_le_add_right rest 1
      · rw [if_neg counts]
        exact Nat.le_add_right_of_le rest

/-- What counts in a list beyond its first part is not counted in that. -/
theorem countP_take_lt {α : Type} {p : α → Bool} {xs : List α} {k n : Nat} {x : α} (late : k ≤ n)
    (there : xs[n]? = some x) (counts : p x = true) : (xs.take k).countP p < xs.countP p := by
  have mem : x ∈ xs.drop k := by
    refine List.mem_of_getElem? (i := n - k) ?_
    rw [List.getElem?_drop, Nat.add_sub_cancel' late, there]
  have another : 0 < (xs.drop k).countP p := List.countP_pos_iff.2 ⟨x, mem, counts⟩
  calc (xs.take k).countP p < (xs.take k).countP p + (xs.drop k).countP p := by omega
    _ = xs.countP p := by rw [← List.countP_append, List.take_append_drop]

/-! ## The refreshes of the loop -/

namespace Core

variable {τ σ : Type} {c : Core τ σ} {l : Line τ σ}

/-- A loop that waits for no refresh has seen the end of all its own. -/
theorem Kept.isEnded_of_loop (kept : c.Kept l) (idle : c.loopBusy = false) {a : Attempt τ σ}
    (mem : a ∈ c.attempts) (mine : a.isOfLoop = true) : a.isEnded = true := by
  have none : l.pending.countP Attempt.isOfLoop = 0 := by
    rw [kept.told.busy, idle]
    rfl
  rw [kept.orderly.attempts_eq] at mem
  rcases List.mem_append.1 mem with ended | pending
  · exact kept.orderly.ended a ended
  · exact absurd mine (List.countP_eq_zero.1 none a pending)

/-- Before a refresh of the loop all earlier ones of its own have ended. -/
theorem Kept.isEnded_of_before (kept : c.Kept l) {m n : Nat} (before : m < n)
    {a b : Attempt τ σ} (first : c.attempts[m]? = some a) (second : c.attempts[n]? = some b)
    (mine : a.isOfLoop = true) (mine' : b.isOfLoop = true) : a.isEnded = true := by
  have once : l.pending.countP Attempt.isOfLoop ≤ 1 := by
    rw [kept.told.busy]
    exact Bool.toNat_le _
  rw [kept.orderly.attempts_eq] at first second
  rcases Nat.lt_or_ge m l.ended.length with inside | outside
  · rw [List.getElem?_append_left inside] at first
    exact kept.orderly.ended a (List.mem_of_getElem? first)
  · -- else two refreshes of the loop would be pending
    exfalso
    rw [List.getElem?_append_right outside] at first
    rw [List.getElem?_append_right (by omega)] at second
    have early : a ∈ l.pending.take (n - l.ended.length) := by
      refine List.mem_of_getElem? (i := m - l.ended.length) ?_
      rw [List.getElem?_take_of_lt (by omega), first]
    have one := List.countP_pos_iff.2 ⟨a, early, mine⟩
    have two := countP_take_lt (Nat.le_refl _) second mine'
    omega

/-- An attempt that has not started is in the queue. -/
theorem Orderly.mem_queue (orderly : c.Orderly l) {n : Nat} {a : Attempt τ σ}
    (there : c.attempts[n]? = some a) (waits : a.isStarted = false) : n ∈ c.queue := by
  have started := orderly.isStarted_iff there
  have inside := (List.getElem?_eq_some_iff.1 there).1
  rw [waits, orderly.fetches_eq] at started
  rw [orderly.attempts, Line.attempts, List.length_append, List.length_append] at inside
  rw [orderly.queue, List.mem_range'_1]
  have late := mt started.2 Bool.false_ne_true
  omega

/-- What has started stays, so its number does not fall, whoever the owners are. -/
theorem Kept.countP_isStarted_le [Clock τ] {d : Core τ σ} (kept : c.Kept l)
    (acts : Relation.ReflTransGen Act c d) {p : Attempt τ σ → Bool}
    (byOwner : ∀ a b : Attempt τ σ, b.owner = a.owner → p b = p a) :
    (c.attempts.countP fun a => p a && a.isStarted) ≤
      d.attempts.countP fun a => p a && a.isStarted := by
  apply countP_le_of_getElem?
  intro n a there counts
  obtain ⟨mine, started⟩ := Bool.and_eq_true_iff.1 counts
  obtain ⟨began, begun⟩ := Attempt.isStarted_iff.1 started
  obtain ⟨b, there', same, begun'⟩ := kept.began acts there begun
  refine ⟨b, there', Bool.and_eq_true_iff.2 ⟨(byOwner a b same).trans mine, ?_⟩⟩
  exact Attempt.isStarted_iff.2 ⟨began, begun'⟩

/-- A loop that has come into being is there. -/
theorem hasLoop_of_acts [Clock τ] {d : Core τ σ} (acts : Relation.ReflTransGen Act c d)
    (there : c.hasLoop = true) : d.hasLoop = true := by
  induction acts with
  | refl => exact there
  | tail before last ih =>
    cases last with
    | @join owner admitted => cases owner <;> exact ih
    | @conclude ticket owner arrived began work place outcome => cases owner <;> exact ih
    | found idle => rfl
    | _ => exact ih

end Core

/-! ## A loop that has been asked to stop -/

namespace Desk

variable {τ : Type} {attempts : Nat} {d e : Desk τ}

/-- The loop has been asked to stop or has ended, after so many refreshes. -/
structure Ceased (attempts : Nat) (d : Desk τ) : Prop where
  ceased : d.stopAsked = true ∨ d.lifecycle = .stopped
  loopAttempts : d.loopAttempts = attempts

/-- A loop that has been asked to stop or has ended asks for no refresh. -/
theorem Ceased.deed [Clock τ] (done : d.Ceased attempts) (lives : d.Lives) (deed : Deed d e) :
    e.Ceased attempts := by
  obtain ⟨ceased, loopAttempts⟩ := done
  cases deed with
  | tick there running unasked =>
    rcases ceased with asked | stopped
    · cases asked.symm.trans unasked
    · cases running.symm.trans ((lives.finished _ there).2 stopped)
  | found idle =>
    refine ⟨.inl (ceased.resolve_right fun stopped => ?_), loopAttempts⟩
    cases idle.symm.trans stopped
  | askStop => exact ⟨.inl rfl, loopAttempts⟩
  | retire none => exact ⟨.inr rfl, loopAttempts⟩
  | endLoop there running cancelled => exact ⟨.inr rfl, loopAttempts⟩
  | _ => exact ⟨ceased, loopAttempts⟩

theorem Ceased.step [Clock τ] (done : d.Ceased attempts) (lives : d.Lives) (step : d.Step e) :
    e.Ceased attempts := by
  cases step with
  | served turn there => exact ⟨done.ceased, done.loopAttempts⟩
  | deeds deeds =>
    refine (deeds.keeps (P := fun d => d.Lives ∧ d.Ceased attempts) ?_ ⟨lives, done⟩).2
    rintro d e deed ⟨lives, done⟩
    exact ⟨lives.deed deed, done.deed lives deed⟩

end Desk

namespace World

variable {τ σ κ : Type} [Clock τ] [DecidableEq κ] {source : Source τ σ κ} {strict : Bool}
  {v w : World τ σ κ}

/-- A loop that has been asked to stop or has ended asks for no refresh. -/
theorem loopAttempts_of_run (reached : Reachable source strict v) (onward : Run source v w)
    (ceased : v.state.stopAsked = true ∨ v.state.lifecycle = .stopped) :
    w.state.loopAttempts = v.state.loopAttempts := by
  have both : (desk w).Lives ∧ (desk w).Ceased v.state.loopAttempts := by
    refine Reachable.keeps (P := fun d => d.Lives ∧ d.Ceased v.state.loopAttempts) ?_
      reached onward ⟨reached.tidy.lives, ceased, rfl⟩
    rintro d e step ⟨lives, done⟩
    exact ⟨lives.step step, done.step lives step⟩
  exact both.2.loopAttempts

omit [Clock τ] in
theorem stopAsked_askToStop (id : Nat) (v : World τ σ κ) :
    (askToStop id v).state.stopAsked = true := by
  unfold askToStop answerStop
  dsimp only
  split
  · rfl
  · split <;> rfl
  · rfl
  · rfl

/-- From a call to stop on, the loop asks for no refresh. -/
theorem loopAttempts_of_stop (reached : Reachable source strict v)
    (onward : Run source (call source .stop v) w) :
    w.state.loopAttempts = v.state.loopAttempts := by
  refine (loopAttempts_of_run (reached.run (run_call .stop v)) onward
    (.inl (stopAsked_askToStop _ _))).trans ?_
  exact congrArg (List.countP Attempt.isOfLoop) (attempts_askToStop _ _)

theorem loopFetches_le_of_run (reached : Reachable source strict v) (onward : Run source v w) :
    v.state.loopFetches ≤ w.state.loopFetches := by
  obtain ⟨l, sound⟩ := reached.sound
  refine sound.kept.countP_isStarted_le (Core.acts_of_moves (moves_of_run onward)) ?_
  intro a b same
  simp [Attempt.isOfLoop, same]

theorem fetches_le_of_run (reached : Reachable source strict v) (onward : Run source v w) :
    v.state.fetches ≤ w.state.fetches := by
  obtain ⟨l, sound⟩ := reached.sound
  exact sound.kept.countP_isStarted_le (p := fun _ => true)
    (Core.acts_of_moves (moves_of_run onward)) fun _ _ _ => rfl

/-- Where the loop has asked for no further refresh, and all that it has asked for have started,
nothing is left that could start. -/
theorem loopFetches_of_run (reached : Reachable source strict v) (onward : Run source v w)
    (same : w.state.loopAttempts = v.state.loopAttempts)
    (started : ∀ a ∈ v.state.attempts, a.isOfLoop = true → a.isStarted = true) :
    w.state.loopFetches = v.state.loopFetches := by
  refine Nat.le_antisymm ?_ (loopFetches_le_of_run reached onward)
  calc w.state.loopFetches ≤ w.state.loopAttempts := w.state.loopFetches_le
    _ = v.state.loopAttempts := same
    _ = v.state.loopFetches := (Keeper.loopFetches_of_isStarted started).symm

/-! ## The end of the loop -/

/-- When a call to stop is answered, the keeper is stopped. -/
theorem stopped_of_answered (reached : Reachable source strict v) {id : Nat} {answer : Answer}
    (answered : v.state.callers[id]? = some ⟨.stop, some answer⟩) :
    v.state.lifecycle = .stopped := by
  have lives := reached.tidy.lives
  have decided := lives.answered id answer answered
  unfold Desk.stopAnswer? at decided
  split at decided
  · split at decided
    · assumption
    · cases decided
  · rename_i interval cancelled loop
    exact (lives.finished _ loop).1 rfl
  · cases decided

/-- What a call to stop is answered where there is a loop. -/
theorem answer_of_stopped (reached : Reachable source strict v) {interval : τ}
    {phase : LoopPhase τ} (loop : v.state.loop = some ⟨interval, phase⟩) {id : Nat}
    {answer : Answer} (answered : v.state.callers[id]? = some ⟨.stop, some answer⟩) :
    ∃ cancelled, phase = .ended cancelled ∧
      answer = if cancelled then .failed .cancelled else .done := by
  have decided := reached.tidy.lives.answered id answer answered
  rw [Desk.stopAnswer?, show (desk v).loop = _ from loop] at decided
  cases phase with
  | ended cancelled => exact ⟨cancelled, rfl, (Option.some.inj decided).symm⟩
  | _ => cases decided

/-- A stopped keeper has no loop that waits for a refresh. -/
theorem loopBusy_of_stopped (reached : Reachable source strict v)
    (stopped : v.state.lifecycle = .stopped) : (core v).loopBusy = false := by
  cases loop : v.state.loop with
  | none => simp [core, Keeper.loopBusy, loop]
  | some l =>
    have ended := (reached.tidy.lives.finished l loop).2 stopped
    rw [loopBusy_of_phase loop]
    obtain ⟨interval, phase⟩ := l
    cases phase with
    | ended cancelled => rfl
    | _ => cases ended

/-- A loop that waits for no refresh has started all that it has asked for. -/
theorem isStarted_of_idle (reached : Reachable source strict v)
    (idle : (core v).loopBusy = false) :
    ∀ a ∈ v.state.attempts, a.isOfLoop = true → a.isStarted = true := by
  intro a mem mine
  obtain ⟨l, sound⟩ := reached.sound
  exact Attempt.isStarted_of_isEnded (sound.kept.isEnded_of_loop idle mem mine)

/-! ## What a call to stop leaves to the loop -/

/-- An attempt of the loop is in the queue, and all that have not ended before it are those of
callers. -/
structure LoopQueues (v : World τ σ κ) (n : Nat) : Prop where
  queued : n ∈ v.state.queue
  mine : ∃ a, v.state.attempts[n]? = some a ∧ a.owner = .loop
  behind : ∀ (m : Nat) (b : Attempt τ σ), m < n → v.state.attempts[m]? = some b →
    b.isEnded = false → b.owner ≠ .loop

/-- What has become of a loop that was asked to stop. -/
structure StopsRight (source : Source τ σ κ) (strict : Bool) (v w : World τ σ κ) : Prop where
  /-- A call to stop is answered after the end of the loop, and fails if that was cancelled. -/
  answered : ∀ (id : Nat) (answer : Answer), w.state.callers[id]? = some ⟨.stop, some answer⟩ →
    w.state.lifecycle = .stopped ∧ ∃ interval cancelled,
      w.state.loop = some ⟨interval, .ended cancelled⟩ ∧
      answer = if cancelled then .failed .cancelled else .done
  once : w.state.loopFetches ≤ v.state.loopFetches + 1
  /-- Only a refresh of the loop that was in the queue already is started. -/
  queued : v.state.loopFetches < w.state.loopFetches → ∃ n, LoopQueues v n
  /-- A loop that did not wait for a refresh makes none. -/
  idle : ∀ l, v.state.loop = some l → l.phase.isRefreshing = false →
    w.state.loopFetches = v.state.loopFetches
  /-- A fetch of the loop goes on until it ends, and is the last one. -/
  fetching : ∀ (n : Nat) (a : Attempt τ σ) (began : τ) (work : σ),
    v.state.attempts[n]? = some a → a.owner = .loop → a.stage = .fetching began work →
    w.state.loopFetches = v.state.loopFetches ∧
    ∃ b, w.state.attempts[n]? = some b ∧ b.owner = .loop ∧
      Pursues source strict w n began b.stage ∧
      ((∀ {p calls}, source.Underway n p calls → p.outcome = none → calls ≠ []) →
        w.ready = [] → w.alarms = [] → b.isEnded = true)
  ledger : w.state.ledger = Ledger.replay strict w.state.course
  /-- Once a call to stop is answered, no fetch is started for the loop. -/
  afterwards : ∀ (id : Nat) (answer : Answer), w.state.callers[id]? = some ⟨.stop, some answer⟩ →
    ∀ x, Run source w x → x.state.loopFetches = w.state.loopFetches

section

variable {l : Line τ σ} (sound : (core v).Sound source strict l)

include sound

omit [Clock τ] [DecidableEq κ] in
/-- A refresh of the loop that has not started is in the queue. -/
theorem loopQueues_of_waits {n : Nat} {a : Attempt τ σ} (there : v.state.attempts[n]? = some a)
    (mine : a.isOfLoop = true) (waits : a.isStarted = false) : LoopQueues v n := by
  refine ⟨sound.kept.orderly.mem_queue there waits, ⟨a, there, Attempt.isOfLoop_iff.1 mine⟩, ?_⟩
  intro m b before there' unended owner
  have ended := sound.kept.isEnded_of_before before there' there (Attempt.isOfLoop_iff.2 owner) mine
  cases unended.symm.trans ended

omit [Clock τ] [DecidableEq κ] in
/-- At most one refresh of the loop has not started. -/
theorem loopAttempts_le : v.state.loopAttempts ≤ v.state.loopFetches + 1 := by
  have attempts : v.state.attempts = l.ended ++ l.pending := sound.kept.orderly.attempts_eq
  have ended : l.ended.countP Attempt.isOfLoop =
      l.ended.countP fun a => a.isOfLoop && a.isStarted := by
    refine List.countP_congr fun a mem => ?_
    simp [Attempt.isStarted_of_isEnded (sound.kept.orderly.ended a mem)]
  have pending : l.pending.countP Attempt.isOfLoop ≤ 1 := by
    rw [sound.kept.told.busy]
    exact Bool.toNat_le _
  rw [Keeper.loopAttempts, Keeper.loopFetches, attempts, List.countP_append, List.countP_append]
  omega

omit [Clock τ] [DecidableEq κ] in
/-- While the loop fetches, all its refreshes have started. -/
theorem isStarted_of_fetching {n : Nat} {a : Attempt τ σ} (there : v.state.attempts[n]? = some a)
    (mine : a.isOfLoop = true) (fetches : a.isFetching = true) :
    ∀ b ∈ v.state.attempts, b.isOfLoop = true → b.isStarted = true := by
  intro b mem mine'
  obtain ⟨m, there'⟩ := List.mem_iff_getElem?.1 mem
  rcases Nat.lt_trichotomy m n with before | rfl | after
  · exact Attempt.isStarted_of_isEnded
      (sound.kept.isEnded_of_before before there' there mine' mine)
  · cases there.symm.trans there'
    exact Attempt.isStarted_of_isFetching fetches
  · have ended := sound.kept.isEnded_of_before after there there' mine mine'
    cases ended.symm.trans (Attempt.isEnded_of_isFetching fetches)

end

/-- A call to stop a loop is answered after the loop has ended.  The loop makes no further fetch
unless it waited for the lock, and then one; and the fetch that it was making goes on until it
ends. -/
theorem stop_right (reached : Reachable source strict v) {loop : Loop τ}
    (there : v.state.loop = some loop) (onward : Run source (call source .stop v) w) :
    StopsRight source strict v w := by
  obtain ⟨l, sound⟩ := reached.sound
  have called : Run source v w := (run_call .stop v).trans onward
  have reached' : Reachable source strict w := reached.run called
  have same : w.state.loopAttempts = v.state.loopAttempts := loopAttempts_of_stop reached onward
  refine { answered := ?answered, once := ?once, queued := ?queued, idle := ?idle,
           fetching := ?fetching, ledger := ?ledger, afterwards := ?afterwards }
  case answered =>
    intro id answer answered
    have hasLoop : w.state.loop.isSome = true :=
      Core.hasLoop_of_acts (Core.acts_of_moves (moves_of_run called)) (by simp [core, there])
    obtain ⟨⟨interval, phase⟩, loop⟩ := Option.isSome_iff_exists.1 hasLoop
    obtain ⟨cancelled, rfl, is⟩ := answer_of_stopped reached' loop answered
    exact ⟨stopped_of_answered reached' answered, interval, cancelled, loop, is⟩
  case once =>
    calc w.state.loopFetches ≤ w.state.loopAttempts := w.state.loopFetches_le
      _ = v.state.loopAttempts := same
      _ ≤ v.state.loopFetches + 1 := loopAttempts_le sound
  case queued =>
    intro further
    by_contra none
    apply Nat.ne_of_gt further
    apply loopFetches_of_run reached called same
    intro a mem mine
    by_contra waits
    obtain ⟨n, place⟩ := List.mem_iff_getElem?.1 mem
    exact none ⟨n, loopQueues_of_waits sound place mine (Bool.eq_false_iff.2 waits)⟩
  case idle =>
    intro loop' loop waits
    exact loopFetches_of_run reached called same
      (isStarted_of_idle reached ((loopBusy_of_phase loop).trans waits))
  case fetching =>
    intro n a began work place mine stage
    have fetches : a.isFetching = true := by simp [Attempt.isFetching, stage]
    have begun : a.began? = some began := by simp [Attempt.began?, stage]
    obtain ⟨b, place', mine', pursues⟩ := reached.pursues called place begun
    refine ⟨loopFetches_of_run reached called same
      (isStarted_of_fetching sound place (Attempt.isOfLoop_iff.2 mine) fetches), b, place',
      mine'.trans mine, pursues, ?_⟩
    intro waits line alarms
    exact pursues.isEnded waits line alarms
  case ledger =>
    obtain ⟨m, sound'⟩ := reached'.sound
    exact ledger_eq sound'
  case afterwards =>
    intro id answer answered x further
    have stopped := stopped_of_answered reached' answered
    exact loopFetches_of_run reached' further (loopAttempts_of_run reached' further (.inr stopped))
      (isStarted_of_idle reached' (loopBusy_of_stopped reached' stopped))

/-- A loop is asked to stop while it makes the first fetch, of two units, and another while it waits
behind a caller who makes that fetch.  The first makes no other, and the second makes the one that
it waited for. -/
theorem stop_right_unsteady :
    let source : Source Int Outcome Unit := .answering Source.unsteady
    let fetching := settle source 20 <| call source (.start 5) (init true)
    let fetched := advance source 9 20 <| call source .refresh <| call source .stop fetching
    let queued := settle source 20 <| call source (.start 5) <| call source .refresh (init true)
    let served := advance source 9 20 <| call source .stop queued
    StopsRight source true fetching fetched ∧ StopsRight source true queued served ∧
      (fetched.state.answerOf 1 matches some .done) ∧ fetched.state.lifecycle = .stopped ∧
      fetched.state.loopFetches = fetching.state.loopFetches ∧ fetched.state.fetches = 2 ∧
      (served.state.answerOf 2 matches some .done) ∧ served.state.lifecycle = .stopped ∧
      served.state.loopFetches = queued.state.loopFetches + 1 ∧ ∃ n, LoopQueues queued n := by
  intro source fetching fetched queued served
  have begun : Reachable source true fetching := (run_call (.start 5) _).trans (run_settle 20 _)
  have begun' : Reachable source true queued :=
    ((run_call .refresh _).trans (run_call (.start 5) _)).trans (run_settle 20 _)
  have onward : Run source (call source .stop fetching) fetched :=
    (run_call .refresh _).trans (run_advance 9 20 _)
  have onward' : Run source (call source .stop queued) served := run_advance 9 20 _
  have loop : fetching.state.loop.isSome = true := by decide
  have loop' : queued.state.loop.isSome = true := by decide
  have right := stop_right begun (Option.some_get loop).symm onward
  have right' := stop_right begun' (Option.some_get loop').symm onward'
  have one : queued.state.loopFetches = 0 := by decide
  have other : served.state.loopFetches = 1 := by decide
  have further : queued.state.loopFetches < served.state.loopFetches := by omega
  exact ⟨right, right', by decide, by decide, by decide, by decide, by decide, by decide,
    by omega, right'.queued further⟩

end World

end ApiCatalog
