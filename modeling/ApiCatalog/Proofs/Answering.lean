/-
# ApiCatalog.Proofs.Answering -- every call to refresh is answered

A call to refresh waits for the attempts before its own, and for nothing else.
While it waits, other parts go on: the loop ticks, the loop ends, other calls are
answered, and whoever comes new joins the queue behind it.  None of them can keep
it waiting for ever, since whatever runs takes off from one load:

* calling a part costs its `weight`, and every relay and every alarm one more;
* an attempt that is still to end costs what its fetch and its end may bring into
  the line (`Attempt.price`); those behind the call's own are of no account.

What a part brings into the line is bounded part by part (`World.Burdens`): its end
wakes callers, its owner and the next attempt, and a tick of the loop finds the lock
taken or the queue not empty, and joins the queue.  So a turn never brings more than
it costs (`burden_runTurn`), and with fuel for the load the call is answered
(`answered_of_await`), whatever the source is like, if only each of its fetches ends.
-/
import ApiCatalog.Proofs.InFlight
import ApiCatalog.Proofs.Survival

namespace ApiCatalog

set_option autoImplicit false

namespace World

variable {τ σ κ : Type}

/-! ## What parts bring into the line -/

/-- What it costs to call a part, where a call of a fetch has its own cost and there are so many
callers. -/
def weight (cost : Nat → κ → Nat) (count : Nat) : Target κ → Nat
  | .loop => 4 * count + 1
  | .attempt _ => 1
  | .fetch ticket token => cost ticket token
  | .caller _ => 1

/-- Nobody has called, and what is in line and in the alarms has grown by no more than `k`. -/
structure Burdens (cost : Nat → κ → Nat) (count k : Nat) (v w : World τ σ κ) : Prop where
  callers : w.state.callers.length = v.state.callers.length
  load : w.load (weight cost count) ≤ v.load (weight cost count) + k

section

variable {cost : Nat → κ → Nat} {count j k : Nat} {u v w : World τ σ κ}

theorem Burdens.refl (w : World τ σ κ) : Burdens cost count 0 w w := ⟨rfl, Nat.le_refl _⟩

theorem Burdens.trans (first : Burdens cost count j u v) (second : Burdens cost count k v w) :
    Burdens cost count (j + k) u w := by
  refine ⟨second.callers.trans first.callers, ?_⟩
  have := first.load
  have := second.load
  omega

theorem Burdens.mono (burdens : Burdens cost count j v w) (le : j ≤ k) :
    Burdens cost count k v w := by
  refine ⟨burdens.callers, ?_⟩
  have := burdens.load
  omega

theorem burdens_modify {f : Keeper τ σ → Keeper τ σ}
    (callers : (f w.state).callers.length = w.state.callers.length) :
    Burdens cost count 0 w (w.modify f) := ⟨callers, Nat.le_refl _⟩

theorem burdens_note (notes : List (Note τ)) (w : World τ σ κ) :
    Burdens cost count 0 w (note notes w) := burdens_modify rfl

theorem burdens_say (e : Event τ) (w : World τ σ κ) : Burdens cost count 0 w (say e w) :=
  burdens_note _ w

theorem burdens_answer (id : Nat) (answer : Answer) (w : World τ σ κ) :
    Burdens cost count 0 w (w.modify (·.answer id answer)) :=
  burdens_modify (List.length_modify ..)

theorem burdens_wake (target : Target κ) (relays : Nat) (w : World τ σ κ) :
    Burdens cost count (weight cost count target + relays) w (w.wake target relays) :=
  ⟨rfl, Nat.le_of_eq (Timeline.load_wake ..)⟩

theorem length_pending_le (k : Keeper τ σ) (sort : Call τ → Bool) :
    (k.pending sort).length ≤ k.callers.length := by
  rw [Keeper.pending, List.length_map]
  exact (List.length_filter_le _ _).trans (Nat.le_of_eq List.length_zipIdx)

/-- Waking callers brings a turn into the line for each. -/
theorem burdens_wakeAll {ids : List Nat} (few : ids.length ≤ count) (relays : Nat)
    (w : World τ σ κ) :
    Burdens cost count (count * (1 + relays)) w (w.wakeAll (ids.map .caller) relays) := by
  refine ⟨rfl, ?_⟩
  have each : ((ids.map Target.caller).map fun target =>
      weight cost count target + relays).sum = ids.length * (1 + relays) := by
    simp [weight, Function.comp_def]
  rw [Timeline.load_wakeAll, each]
  exact Nat.add_le_add_left (Nat.mul_le_mul_right _ few) _

section

variable (few : w.state.callers.length ≤ count)

include few

theorem burdens_signalSyncWaiters : Burdens cost count (3 * count) w (signalSyncWaiters w) :=
  (burdens_wakeAll ((length_pending_le w.state _).trans few) signalRelays w).mono
    (by simp only [signalRelays]; omega)

theorem burdens_endLoop (cancelled : Bool) :
    Burdens cost count (4 * count) w (endLoop cancelled w) := by
  let ended : World τ σ κ := w.modify fun k =>
    { k.setPhase (.ended cancelled) with lifecycle := .stopped, stopSignal := true }
  have signalled : Burdens cost count (3 * count) ended (signalSyncWaiters ended) :=
    burdens_signalSyncWaiters few
  have stops : Burdens cost count _ _ _ := burdens_wakeAll
    ((length_pending_le (signalSyncWaiters ended).state Call.isStop).trans few) 0
    (signalSyncWaiters ended)
  exact (((burdens_modify rfl).trans signalled).trans stops).mono (by omega)

theorem burdens_publish (snapshot : Snapshot τ) :
    Burdens cost count (3 * count) w (publish snapshot w) := by
  let shown : World τ σ κ := w.modify fun k =>
    { k with snapshot := some snapshot, syncSignal := true }
  have signalled : Burdens cost count (3 * count) shown (signalSyncWaiters shown) :=
    burdens_signalSyncWaiters few
  exact ((((burdens_modify rfl).trans signalled).trans (burdens_modify rfl)).trans
    (burdens_say _ _)).mono (by omega)

theorem burdens_judge (began : τ) (outcome : Outcome) :
    Burdens cost count (3 * count) w (judge began outcome w).2 := by
  cases outcome with
  | error why =>
    simp only [judge]
    split
    · exact (Burdens.refl w).mono (Nat.zero_le _)
    · exact ((burdens_modify rfl).trans (burdens_say _ _)).mono (Nat.zero_le _)
  | ok listings =>
    simp only [judge]
    have remarked : Burdens cost count 0 w
        (note ((Snapshot.index w.state.strict listings).remarks.map .indexing) w) :=
      burdens_note _ w
    split
    · refine (remarked.trans (burdens_publish ?_ _)).mono (Nat.le_of_eq (Nat.zero_add _))
      exact few
    · simp only
      split
      · exact (remarked.trans (burdens_modify rfl)).mono (Nat.zero_le _)
      · exact remarked.mono (Nat.zero_le _)

end

theorem burdens_release (w : World τ σ κ) : Burdens cost count 1 w (release w) := by
  have freed : Burdens cost count 0 w (w.modify fun k => { k with locked := false }) :=
    burdens_modify rfl
  unfold release
  dsimp only
  split
  · exact freed.mono (Nat.zero_le _)
  · exact (freed.trans (burdens_wake (.attempt _) 0 _)).mono (Nat.le_refl 1)

theorem burdens_answerStop (id : Nat) (cancelled : Bool) (w : World τ σ κ) :
    Burdens cost count 0 w (answerStop id cancelled w) := by
  unfold answerStop
  split
  · exact burdens_answer _ _ _
  · exact (burdens_say _ _).trans (burdens_answer _ _ _)

theorem burdens_callerTurn [DecidableEq κ] (id : Nat) (w : World τ σ κ) :
    Burdens cost count 0 w (callerTurn id w) := by
  have disarmed : Burdens cost count 0 w (w.disarm (.caller id)) :=
    ⟨rfl, Timeline.load_disarm_le ..⟩
  unfold callerTurn
  split
  · exact disarmed.trans (burdens_modify (List.length_modify ..))
  · split
    · exact burdens_answerStop _ _ _
    · exact .refl w
  · exact .refl w

variable [Clock τ]

theorem burdens_follow (ticket : Nat) (p : Progress τ σ κ) (w : World τ σ κ) :
    Burdens cost count (p.load (cost ticket)) w (w.follow (.fetch ticket) p) := by
  refine ⟨?_, Nat.le_of_eq (Timeline.load_follow ..)⟩
  rw [Timeline.follow_eq]

section

variable (few : w.state.callers.length ≤ count)

include few

theorem burdens_rest (interval began : τ) :
    Burdens cost count (4 * count + 3) w (rest interval began w) := by
  simp only [rest]
  split
  · split
    · exact (burdens_endLoop few false).mono (by omega)
    · refine ⟨rfl, ?_⟩
      rw [Timeline.load_arm, Timeline.load_modify]
      simp only [weight]
      omega
  · exact (burdens_modify rfl).trans (burdens_wake .loop overdueRelays _) |>.mono
      (by simp only [weight, overdueRelays]; omega)

theorem burdens_goOn (owner : Owner) (verdict : Verdict) :
    Burdens cost count (4 * count + 3) w (goOn owner verdict w) := by
  cases owner with
  | caller id => exact (burdens_answer _ _ _).mono (Nat.zero_le _)
  | loop =>
    simp only [goOn, afterLoopRefresh]
    split
    · split
      · exact burdens_rest few _ _
      · exact burdens_rest few _ _
      · exact (burdens_endLoop few true).mono (by omega)
      · refine ((burdens_say _ _).trans (burdens_rest ?_ _ _)).mono (by omega)
        exact few
    · exact (Burdens.refl w).mono (Nat.zero_le _)

/-- What the end of a fetch may bring into the line, where there are so many callers. -/
theorem burdens_conclude (ticket : Nat) (owner : Owner) (began : τ) (outcome : Outcome) :
    Burdens cost count (7 * count + 4) w (conclude ticket owner began outcome w) := by
  have judged : Burdens cost count (3 * count) w (judge began outcome (note [.fetchEnded] w)).2 :=
    ((burdens_note [.fetchEnded] w).trans (burdens_judge (w := note [.fetchEnded] w) few began
      outcome)).mono (Nat.le_of_eq (Nat.zero_add _))
  simp only [conclude]
  generalize judge began outcome (note [.fetchEnded] w) = pair at judged ⊢
  obtain ⟨verdict, v⟩ := pair
  have released := (judged.trans (burdens_modify (f := fun k =>
    { k.setStage ticket (.ended began v.now outcome verdict) with
      meters := { k.meters with durations := k.meters.durations ++ [v.now - began] } })
    rfl)).trans (burdens_release _)
  have gone := released.trans (burdens_goOn (released.callers.trans_le few) owner verdict)
  exact gone.mono (by omega)

theorem burdens_absorb (ticket : Nat) (owner : Owner) (began : τ) (p : Progress τ σ κ) :
    Burdens cost count
      (p.load (cost ticket) + if p.outcome.isSome then 7 * count + 4 else 0) w
      (absorb ticket owner began p w) := by
  have taken : Burdens cost count 0 w (w.modify fun k =>
      (k.setStage ticket (.fetching began p.work)).note (p.notes.map .source)) :=
    burdens_modify rfl
  have followed := taken.trans (burdens_follow ticket p _)
  unfold absorb
  dsimp only
  cases p.outcome with
  | none => exact followed.mono (by omega)
  | some outcome =>
    have ended := followed.trans
      (burdens_conclude (followed.callers.trans_le few) ticket owner began outcome)
    exact ended.mono (by rw [Option.isSome_some, if_pos rfl]; omega)

theorem burdens_begin (source : Source τ σ κ) (ticket : Nat) (owner : Owner) :
    ∃ k, Burdens cost count k w (begin source ticket owner w) := by
  have opened : Burdens cost count 0 w (note [.fetchStarted] (say .refreshStarted
      (w.modify fun k => { k with locked := true }))) :=
    ((burdens_modify rfl).trans (burdens_say _ _)).trans (burdens_note _ _)
  exact ⟨_, opened.trans (burdens_absorb (opened.callers.trans_le few) _ _ _ _)⟩

theorem burdens_arrive (source : Source τ σ κ) (owner : Owner) :
    ∃ k, Burdens cost count k w (arrive source owner w) := by
  have joined : Burdens cost count 0 w (w.modify fun k =>
      { k with attempts := k.attempts ++ [{ owner, arrived := w.now }] }) := burdens_modify rfl
  simp only [arrive]
  split
  · obtain ⟨k, begun⟩ : ∃ k, Burdens cost count k _ _ :=
      burdens_begin (joined.callers.trans_le few) source w.state.attempts.length owner
    exact ⟨_, joined.trans begun⟩
  · exact ⟨_, joined.trans (burdens_modify rfl)⟩

/-- A part that takes a turn makes no calls. -/
theorem burdens_act [DecidableEq κ] (source : Source τ σ κ) (target : Target κ) :
    ∃ k, Burdens cost count k w (act source target w) := by
  cases target with
  | loop =>
    have tick : ∃ k, Burdens cost count k w (if w.state.stopAsked then endLoop false w
        else w.modify (·.setPhase (.refreshing w.now)) |> arrive source .loop) := by
      split
      · exact ⟨_, burdens_endLoop few false⟩
      · have set : Burdens cost count 0 w (w.modify (·.setPhase (.refreshing w.now))) :=
          burdens_modify rfl
        obtain ⟨k, arrived⟩ : ∃ k, Burdens cost count k _ _ :=
          burdens_arrive (set.callers.trans_le few) source .loop
        exact ⟨_, set.trans arrived⟩
    simp only [act, loopTurn]
    split
    · exact tick
    · exact tick
    · exact ⟨0, .refl w⟩
  | attempt ticket =>
    simp only [act, attemptTurn]
    split
    · rename_i head rest attempt queue there
      split
      · have taken : Burdens cost count 0 w (w.modify fun k => { k with queue := rest }) :=
          burdens_modify rfl
        obtain ⟨k, begun⟩ : ∃ k, Burdens cost count k _ _ :=
          burdens_begin (taken.callers.trans_le few) source ticket attempt.owner
        exact ⟨_, taken.trans begun⟩
      · exact ⟨0, .refl w⟩
    · exact ⟨0, .refl w⟩
  | fetch ticket token =>
    simp only [act, fetchTurn]
    split
    · exact ⟨_, burdens_absorb few _ _ _ _⟩
    · exact ⟨0, .refl w⟩
  | caller id => exact ⟨0, burdens_callerTurn id w⟩

end

end

end World

/-! ## What attempts may still bring -/

/-- What an attempt may still bring into the line: what its fetch starts with, for which `fresh` is
enough, and what its end brings. -/
def Attempt.price {τ σ : Type} (count fresh : Nat) (a : Attempt τ σ) : Nat :=
  match a.stage with
  | .queued => 7 * count + 4 + fresh + 1
  | .fetching _ _ => 7 * count + 4
  | .ended _ _ _ _ => 0

/-- A sum over the first of some elements changes by the one that is changed. -/
theorem sum_take_modify {α : Type} (price : α → Nat) (f : α → α) {xs : List α} {m k : Nat} {x : α}
    (there : xs[m]? = some x) (inside : m < k) :
    (((xs.modify m f).take k).map price).sum + price x =
      ((xs.take k).map price).sum + price (f x) := by
  induction xs generalizing m k with
  | nil => cases there
  | cons y ys ih =>
    obtain ⟨k, rfl⟩ := Nat.exists_eq_succ_of_ne_zero (Nat.ne_of_gt (Nat.zero_lt_of_lt inside))
    cases m with
    | zero =>
      cases there
      simp only [List.modify_zero_cons, List.take_succ_cons, List.map_cons, List.sum_cons]
      omega
    | succ m =>
      have later := ih (m := m) there (Nat.lt_of_succ_lt_succ inside)
      simp only [List.modify_succ_cons, List.take_succ_cons, List.map_cons, List.sum_cons]
      omega

namespace World

variable {τ σ κ : Type} {cost : Nat → κ → Nat} {count fresh n : Nat} {v w : World τ σ κ}

/-- What the line, the alarms and the attempts up to one of them may still come to. -/
def burden (cost : Nat → κ → Nat) (count fresh n : Nat) (w : World τ σ κ) : Nat :=
  w.load (weight cost count) +
    ((w.state.attempts.take (n + 1)).map (Attempt.price count fresh)).sum

variable (fresh n) in
/-- Where the attempts are left alone, the burden grows as the line does. -/
theorem Burdens.burden_le {k : Nat} (burdens : Burdens cost count k v w)
    (attempts : w.state.attempts = v.state.attempts) :
    burden cost count fresh n w ≤ burden cost count fresh n v + k := by
  have := burdens.load
  rw [burden, burden, attempts]
  omega

variable [Clock τ]

/-- What a fetch has done moves its attempt on: it goes on fetching, or it has ended. -/
theorem attempts_absorb (ticket : Nat) (owner : Owner) (began : τ) (p : Progress τ σ κ)
    (w : World τ σ κ) : ∃ stage,
    (absorb ticket owner began p w).state.attempts =
        w.state.attempts.modify ticket (fun a => { a with stage }) ∧
      (p.outcome.isSome = false → stage = .fetching began p.work) ∧
      (p.outcome.isSome = true →
        ∃ ended outcome verdict, stage = .ended began ended outcome verdict) := by
  have same : (absorb ticket owner began p w).state.attempts =
      ((core w).absorb ticket owner began p).attempts :=
    (core_absorb ticket owner began p w).attempts
  rw [same, Core.absorb]
  cases p.outcome with
  | none => exact ⟨_, rfl, fun _ => rfl, fun ended => by cases ended⟩
  | some outcome =>
    refine ⟨.ended began w.now outcome (Verdict.of w.state.strict outcome), ?_,
      (fun going => by cases going), fun _ => ⟨_, _, _, rfl⟩⟩
    simp only [Core.conclude, Core.attempts_goOn, Core.settle, Core.setStage,
      List.modify_modify_eq]
    rfl

section

variable (few : w.state.callers.length ≤ count)

include few

variable (cost fresh) in
/-- What a fetch has done costs what it asks for, and is paid by its attempt. -/
theorem burden_absorb {ticket : Nat} {a : Attempt τ σ} (there : w.state.attempts[ticket]? = some a)
    (ahead : ticket ≤ n) (owner : Owner) (began : τ) (p : Progress τ σ κ) :
    burden cost count fresh n (absorb ticket owner began p w) + a.price count fresh ≤
      burden cost count fresh n w + p.load (cost ticket) + (7 * count + 4) := by
  have whole : Burdens cost count _ w (absorb ticket owner began p w) :=
    burdens_absorb few ticket owner began p
  have load := whole.load
  obtain ⟨stage, attempts, goes, ends⟩ := attempts_absorb ticket owner began p w
  have inside : ticket < n + 1 := by omega
  have prices := sum_take_modify (Attempt.price count fresh) (fun a => { a with stage }) there
    inside
  rw [burden, burden, attempts]
  cases outcome : p.outcome.isSome with
  | false =>
    rw [outcome, if_neg (by decide)] at load
    have price : Attempt.price count fresh { a with stage } = 7 * count + 4 := by
      rw [goes outcome]
      rfl
    omega
  | true =>
    rw [outcome, if_pos rfl] at load
    obtain ⟨ended, outcome', verdict, is⟩ := ends outcome
    have price : Attempt.price count fresh { a with stage } = 0 := by
      rw [is]
      rfl
    omega

/-- A fetch that starts is paid for by its attempt. -/
theorem burden_begin {source : Source τ σ κ} {ticket : Nat} {a : Attempt τ σ}
    (there : w.state.attempts[ticket]? = some a) (queued : a.stage = .queued) (ahead : ticket ≤ n)
    (number : w.state.fetches = ticket)
    (light : (source.start ticket).load (cost ticket) ≤ fresh) (owner : Owner) :
    burden cost count fresh n (begin source ticket owner w) < burden cost count fresh n w := by
  let opened : World τ σ κ := note [.fetchStarted] (say .refreshStarted
    (w.modify fun k => { k with locked := true }))
  have begins : begin source ticket owner w =
      absorb ticket owner w.now (source.start ticket) opened := by
    rw [begin, number]
    rfl
  have same : burden cost count fresh n opened = burden cost count fresh n w := rfl
  have price : a.price count fresh = 7 * count + 4 + fresh + 1 := by
    rw [Attempt.price, queued]
  have paid := burden_absorb cost fresh (w := opened) few there ahead owner w.now
    (source.start ticket)
  rw [begins]
  omega

end

end World

/-! ## While an attempt has not ended -/

namespace Core

variable {τ σ : Type} {c : Core τ σ} {l : Line τ σ}

section

variable (orderly : c.Orderly l) {n : Nat} {a : Attempt τ σ} (there : c.attempts[n]? = some a)
  (pending : a.isEnded = false)

include orderly there pending

/-- An attempt that has not ended comes after those that have. -/
theorem Orderly.length_ended_le : l.ended.length ≤ n := by
  by_contra before
  have ended := (orderly.isEnded_iff there).2 (Nat.lt_of_not_le before)
  rw [pending] at ended
  cases ended

/-- While an attempt has not ended, whoever comes has to wait. -/
theorem Orderly.busy : c.locked = true ∨ c.queue ≠ [] := by
  by_contra idle
  obtain ⟨free, empty⟩ : c.locked = false ∧ c.queue = [] := by simpa using idle
  have current : l.current = none := by
    rw [← Option.isNone_iff_eq_none, ← Option.not_isSome, ← orderly.locked]
    exact congrArg not free
  have all := orderly.fetches_of_idle free empty
  rw [orderly.fetches_eq, current, Option.toList_none, List.length_nil, Nat.add_zero] at all
  have behind := orderly.length_ended_le there pending
  have inside := (List.getElem?_eq_some_iff.1 there).1
  omega

end

end Core

namespace World

variable {τ σ κ : Type} {cost : Nat → κ → Nat} {count fresh n : Nat} [Clock τ]
  {source : Source τ σ κ} {strict : Bool} {w : World τ σ κ} {l : Line τ σ}

/-- An attempt waits for those before it: it has not ended, and what its fetch and theirs start with
is within bounds, as is the number of callers. -/
structure Waits (source : Source τ σ κ) (cost : Nat → κ → Nat) (count fresh n : Nat)
    (w : World τ σ κ) : Prop where
  attempt : ∃ a, w.state.attempts[n]? = some a ∧ a.isEnded = false
  light : ∀ m ≤ n, (source.start m).load (cost m) ≤ fresh
  few : w.state.callers.length ≤ count

section

variable (orderly : (core w).Orderly l) (waits : Waits source cost count fresh n w)

include orderly waits

/-- Whoever comes while an attempt waits joins the queue behind it. -/
theorem burden_arrive (owner : Owner) :
    burden cost count fresh n (arrive source owner w) = burden cost count fresh n w := by
  obtain ⟨a, there, pending⟩ := waits.attempt
  have busy : (!w.state.locked && w.state.queue.isEmpty) = false := by
    rcases orderly.busy there pending with locked | queue
    · have locked : w.state.locked = true := locked
      simp [locked]
    · have queue : w.state.queue ≠ [] := queue
      simp [queue]
  have inside : n + 1 ≤ w.state.attempts.length := (List.getElem?_eq_some_iff.1 there).1
  simp only [arrive, busy]
  show _ + (((w.state.attempts ++ [_]).take (n + 1)).map _).sum = _
  rw [List.take_append_of_le_length inside]
  rfl

/-- A tick of the loop costs no more than the end of the loop. -/
theorem burden_loopTurn :
    burden cost count fresh n (loopTurn source w) ≤ burden cost count fresh n w + 4 * count := by
  have tick : burden cost count fresh n (if w.state.stopAsked then endLoop false w
      else w.modify (·.setPhase (.refreshing w.now)) |> arrive source .loop) ≤
        burden cost count fresh n w + 4 * count := by
    split
    · exact (burdens_endLoop waits.few false).burden_le fresh n
        (congrArg Core.attempts (core_endLoop false w))
    · have joined := burden_arrive (w := w.modify (·.setPhase (.refreshing w.now)))
        (orderly.congr rfl rfl rfl) ⟨waits.attempt, waits.light, waits.few⟩ .loop
      exact Nat.le_of_eq joined |>.trans (Nat.le_add_right _ _)
  unfold loopTurn
  split
  · exact tick
  · exact tick
  · exact Nat.le_add_right _ _

end

/-! ## What is paid by the first attempts -/

/-- What the fetches of the first attempts start with is within bounds, as is the number of callers,
and all attempts that have ended are among the first. -/
structure Bounded (source : Source τ σ κ) (cost : Nat → κ → Nat) (count fresh n : Nat)
    (w : World τ σ κ) : Prop where
  light : ∀ m ≤ n, (source.start m).load (cost m) ≤ fresh
  few : w.state.callers.length ≤ count
  first : w.state.attempts.countP Attempt.isEnded ≤ n

omit [Clock τ] in
/-- While an attempt waits, those that have ended are before it. -/
theorem Waits.bounded (waits : Waits source cost count fresh n w) (orderly : (core w).Orderly l) :
    Bounded source cost count fresh n w := by
  obtain ⟨a, there, pending⟩ := waits.attempt
  refine ⟨waits.light, waits.few, ?_⟩
  rw [show w.state.attempts.countP Attempt.isEnded = _ from orderly.completed]
  exact orderly.length_ended_le there pending

section

variable (orderly : (core w).Orderly l) (bounded : Bounded source cost count fresh n w)

include orderly bounded

/-- The turn of an attempt costs nothing that is not paid. -/
theorem burden_attemptTurn (ticket : Nat) :
    burden cost count fresh n (attemptTurn source ticket w) ≤ burden cost count fresh n w := by
  have first : l.ended.length ≤ n := orderly.completed ▸ bounded.first
  unfold attemptTurn
  split
  · rename_i head rest attempt queue place
    split
    · rename_i may
      obtain ⟨rfl, free⟩ : head = ticket ∧ w.state.locked = false := by simpa using may
      obtain ⟨queued, number⟩ := orderly.next free queue place
      obtain ⟨-, -, -, last, -⟩ := orderly.at_head free queue
      have ahead : head ≤ n := by omega
      exact Nat.le_of_lt (burden_begin (w := w.modify fun k => { k with queue := rest })
        bounded.few place queued ahead number (bounded.light head ahead) attempt.owner)
    · exact Nat.le_refl _
  · exact Nat.le_refl _

/-- The turn of a fetch costs less than its call. -/
theorem burden_fetchTurn {v : World τ σ κ} {ticket : Nat} {token : κ}
    (finite : ∀ m, source.Finite m (cost m)) (positive : ∀ m token, 0 < cost m token)
    (attended : Attended source w) (called : owed w = (ticket, token) ::ₘ owed v)
    (state : v.state = w.state) :
    burden cost count fresh n (fetchTurn source ticket token v) <
      burden cost count fresh n v + cost ticket token := by
  have first : l.ended.length ≤ n := orderly.completed ▸ bounded.first
  unfold fetchTurn
  split
  · rename_i owner arrived began work place
    rw [state] at place
    obtain ⟨p, owed', left, underway, unfinished, rfl, next, -⟩ :=
      exists_underway_of_called attended called place
    have cheaper := (finite ticket).cheaper underway unfinished next
    have current := (orderly.at_current place rfl).2
    have ahead : ticket ≤ n := by omega
    have paid := burden_absorb cost fresh (w := v) (state ▸ bounded.few) (state ▸ place) ahead
      owner began (source.resume p.work token)
    have price : Attempt.price count fresh ⟨owner, arrived, .fetching began p.work⟩ =
        7 * count + 4 := rfl
    omega
  · have := positive ticket token
    omega

end

/-! ## Whatever runs takes off from the load -/

omit [Clock τ] in
/-- A turn costs what its part costs, and is no longer in line. -/
theorem burden_rest {turn : Turn (Target κ)} {rest : List (Turn (Target κ))}
    (line : w.ready = turn :: rest) :
    burden cost count fresh n w = burden cost count fresh n { w with ready := rest } +
      (weight cost count turn.target + turn.relays) := by
  simp only [burden, Timeline.load, line, List.map_cons, List.sum_cons]
  omega

/-- Any alarm that goes off brings less than it costs. -/
theorem burden_ring {alarm : Alarm τ (Target κ)} {others : List (Alarm τ (Target κ))}
    (taken : Timeline.takeEarliest w.alarms = some (alarm, others)) :
    burden cost count fresh n (w.ring alarm others) < burden cost count fresh n w := by
  have state : (w.ring alarm others).state = w.state := by
    simp only [Timeline.ring, Timeline.reach, Timeline.wake]
    split <;> rfl
  have lighter := Timeline.load_ring (weight cost count) taken
  rw [burden, burden, state]
  omega

variable [DecidableEq κ]

/-- Any turn brings less than it costs, except perhaps one of the loop. -/
theorem burden_runTurn_other (finite : ∀ m, source.Finite m (cost m))
    (positive : ∀ m token, 0 < cost m token) (reached : Reachable source strict w)
    (bounded : Bounded source cost count fresh n w) {turn : Turn (Target κ)}
    {rest : List (Turn (Target κ))} (line : w.ready = turn :: rest)
    (other : turn.target = .loop → turn.relays ≠ 0) :
    burden cost count fresh n (Timeline.runTurn (act source) turn { w with ready := rest }) <
      burden cost count fresh n w := by
  obtain ⟨l, sound⟩ := reached.sound
  let left : World τ σ κ := { w with ready := rest }
  have orderly : (core left).Orderly l := sound.kept.orderly
  have bounded' : Bounded source cost count fresh n left :=
    ⟨bounded.light, bounded.few, bounded.first⟩
  have all : burden cost count fresh n w =
      burden cost count fresh n left + (weight cost count turn.target + turn.relays) :=
    burden_rest line
  show burden cost count fresh n (Timeline.runTurn (act source) turn left) < _
  rw [all]
  obtain ⟨target, relays⟩ := turn
  cases relays with
  | succ relays =>
    -- the turn goes to the end of the line
    have again : Burdens cost count (weight cost count target + relays) left
        (left.wake target relays) := burdens_wake target relays left
    have paid := again.burden_le fresh n rfl
    simp only [Timeline.runTurn]
    omega
  | zero =>
    simp only [Timeline.runTurn, Nat.add_zero]
    cases target with
    | loop => exact absurd rfl (other rfl)
    | attempt ticket =>
      have paid := burden_attemptTurn orderly bounded' ticket
      simp only [act, weight]
      omega
    | caller id =>
      have answered : Burdens cost count 0 left (callerTurn id left) := burdens_callerTurn id left
      have paid := answered.burden_le fresh n (congrArg Core.attempts (core_callerTurn id left))
      simp only [act, weight]
      omega
    | fetch ticket token =>
      have called : owed w = (ticket, token) ::ₘ owed left := by
        simp [owed, Timeline.targets, line, left, Target.fetch?]
      exact burden_fetchTurn sound.kept.orderly bounded finite positive reached.attended called rfl

/-- While an attempt waits, any turn brings less than it costs. -/
theorem burden_runTurn (finite : ∀ m, source.Finite m (cost m))
    (positive : ∀ m token, 0 < cost m token) (reached : Reachable source strict w)
    (waits : Waits source cost count fresh n w) {turn : Turn (Target κ)}
    {rest : List (Turn (Target κ))} (line : w.ready = turn :: rest) :
    burden cost count fresh n (Timeline.runTurn (act source) turn { w with ready := rest }) <
      burden cost count fresh n w := by
  obtain ⟨l, sound⟩ := reached.sound
  by_cases ticks : turn = ⟨.loop, 0⟩
  · subst ticks
    have orderly : (core { w with ready := rest }).Orderly l := sound.kept.orderly
    have paid := burden_loopTurn (w := { w with ready := rest }) orderly
      ⟨waits.attempt, waits.light, waits.few⟩
    rw [burden_rest line]
    simp only [Timeline.runTurn, act, weight]
    omega
  · refine burden_runTurn_other finite positive reached (waits.bounded sound.kept.orderly) line ?_
    intro mine now
    obtain ⟨target, relays⟩ := turn
    cases mine
    cases now
    exact ticks rfl

/-! ## The end of an attempt -/

/-- An attempt stays the one that it is, and has ended for ever. -/
theorem attempt_of_run {v : World τ σ κ} (reached : Reachable source strict v)
    (onward : Run source v w) {a : Attempt τ σ} (there : v.state.attempts[n]? = some a) :
    ∃ b, w.state.attempts[n]? = some b ∧ b.owner = a.owner ∧
      (a.isEnded = true → b.isEnded = true) := by
  obtain ⟨l, sound⟩ := reached.sound
  obtain ⟨m, sound', grows⟩ := sound.moves (moves_of_run onward)
  obtain ⟨b, place, same⟩ : ∃ b, w.state.attempts[n]? = some b ∧ b.arrival = a.arrival := by
    have arrived : (v.state.attempts.map Attempt.arrival)[n]? = some a.arrival := by
      rw [List.getElem?_map, there]
      rfl
    obtain ⟨more, split⟩ := (prefix_of_run reached onward).1
    have still : (w.state.attempts.map Attempt.arrival)[n]? = some a.arrival := by
      rw [← split, List.getElem?_append_left (List.getElem?_eq_some_iff.1 arrived).1, arrived]
    rwa [List.getElem?_map, Option.map_eq_some_iff] at still
  refine ⟨b, place, congrArg Prod.fst same, fun ended => ?_⟩
  have first := (sound.kept.orderly.isEnded_iff there).1 ended
  exact (sound'.kept.orderly.isEnded_iff place).2 (first.trans_le grows.ended.length_le)

/-- A reachable world that has an attempt of some number and owner, and no more than so many
callers. -/
structure Holds (source : Source τ σ κ) (strict : Bool) (count n : Nat) (owner : Owner)
    (w : World τ σ κ) : Prop where
  reached : Reachable source strict w
  attempt : ∃ a, w.state.attempts[n]? = some a ∧ a.owner = owner
  few : w.state.callers.length ≤ count

theorem step_of_goes {u : World τ σ κ} (goes : Timeline.Goes (act source) w u) :
    Step source w u := by
  cases goes with
  | turn line => exact .turn (line ▸ .refl _)
  | alarm taken => exact .ring (Timeline.perm_of_takeEarliest taken)

theorem run_of_goes {u : World τ σ κ} (goes : Timeline.Goes (act source) w u) :
    Run source w u :=
  (Run.refl w).step (step_of_goes goes)

theorem callers_of_goes {u : World τ σ κ} (goes : Timeline.Goes (act source) w u) :
    u.state.callers.length = w.state.callers.length := by
  cases goes with
  | @turn turn rest line =>
    obtain ⟨target, relays⟩ := turn
    cases relays with
    | succ relays => rfl
    | zero =>
      obtain ⟨k, burdens⟩ : ∃ k, Burdens (fun _ _ => 0) _ k { w with ready := rest } _ :=
        burdens_act (Nat.le_refl _) source target
      exact burdens.callers
  | alarm taken =>
    simp only [Timeline.ring, Timeline.reach, Timeline.wake]
    split <;> rfl

variable {owner : Owner}

theorem Holds.goes {u : World τ σ κ} (holds : Holds source strict count n owner w)
    (goes : Timeline.Goes (act source) w u) : Holds source strict count n owner u := by
  obtain ⟨a, there, mine⟩ := holds.attempt
  obtain ⟨b, place, same, -⟩ := attempt_of_run holds.reached (run_of_goes goes) there
  exact ⟨holds.reached.run (run_of_goes goes), ⟨b, place, same.trans mine⟩,
    (callers_of_goes goes).trans_le holds.few⟩

/-- While an attempt has not ended, somebody is left to be called. -/
theorem targets_ne_nil (finite : ∀ m, source.Finite m (cost m))
    (reached : Reachable source strict w) {a : Attempt τ σ}
    (there : w.state.attempts[n]? = some a) (pending : a.isEnded = false) : w.targets ≠ [] := by
  intro idle
  obtain ⟨line, alarms⟩ : w.ready = [] ∧ w.alarms = [] := by
    simpa [Timeline.targets] using idle
  have quiet : w.Quiet := ⟨line, by simp [alarms]⟩
  obtain ⟨l, sound⟩ := reached.sound
  cases locked : w.state.locked with
  | false =>
    have ended := (isEnded_of_quiet reached quiet ((unlocked_iff sound).1 locked)).2 a
      (List.mem_of_getElem? there)
    rw [pending] at ended
    cases ended
  | true =>
    -- whoever holds the lock fetches, and a fetch waits for a call
    obtain ⟨m, b, place, fetches⟩ := sound.kept.orderly.exists_of_locked locked
    have place : w.state.attempts[m]? = some b := place
    have attended := reached.attended m
    obtain ⟨began, work, stage⟩ := Attempt.stage_of_isFetching fetches
    rw [place, Option.map_some, stage] at attended
    obtain ⟨p, waits, underway, unfinished, -, calls⟩ := attended
    have none : callsOf m (owed w) = 0 := by
      simp [owed, idle, callsOf]
    rw [none] at calls
    exact ((finite m).ends underway).1 unfinished ((Multiset.coe_eq_zero waits).1 calls.symm)

/-- As long as an attempt has not ended, whatever runs takes off from the burden. -/
theorem nears (finite : ∀ m, source.Finite m (cost m)) (positive : ∀ m token, 0 < cost m token)
    (light : ∀ m ≤ n, (source.start m).load (cost m) ≤ fresh) {done : Keeper τ σ → Bool}
    (ends : ∀ {w a}, Holds source strict count n owner w → w.state.attempts[n]? = some a →
      done w.state = a.isEnded) :
    Timeline.Nears (act source) (Holds source strict count n owner) done
      (burden cost count fresh n) where
  keeps holds goes := holds.goes goes
  stays holds goes ready := by
    obtain ⟨a, there, mine⟩ := holds.attempt
    obtain ⟨b, place, -, still⟩ := attempt_of_run holds.reached (run_of_goes goes) there
    rw [ends (holds.goes goes) place]
    exact still ((ends holds there).symm.trans ready)
  nearer {t u} holds goes waiting := by
    obtain ⟨a, there, mine⟩ := holds.attempt
    rw [ends holds there] at waiting
    cases goes with
    | turn line =>
      exact burden_runTurn finite positive holds.reached ⟨⟨a, there, waiting⟩, light, holds.few⟩
        line
    | alarm taken => exact burden_ring taken
  waits holds waiting := by
    obtain ⟨a, there, mine⟩ := holds.attempt
    rw [ends holds there] at waiting
    exact targets_ne_nil finite holds.reached there waiting

omit [Clock τ] [DecidableEq κ] in
/-- What finitely many fetches start with is within bounds. -/
theorem exists_fresh (source : Source τ σ κ) (cost : Nat → κ → Nat) (n : Nat) :
    ∃ fresh, ∀ m ≤ n, (source.start m).load (cost m) ≤ fresh := by
  let starts : List Nat := (List.range (n + 1)).map fun m => (source.start m).load (cost m)
  refine ⟨starts.sum, fun m before => ?_⟩
  refine List.single_le_sum (fun _ _ => Nat.zero_le _) _ (List.mem_map.2 ⟨m, ?_, rfl⟩)
  exact List.mem_range.2 (Nat.lt_succ_of_le before)

/-- Where each fetch comes to its end, every call to refresh is answered, whatever else goes on. -/
theorem answered_of_await (finite : ∀ m, source.Finite m (cost m))
    (positive : ∀ m token, 0 < cost m token) (reached : Reachable source strict w) {id : Nat}
    {answer : Option Answer} (there : w.state.callers[id]? = some ⟨.refresh, answer⟩) :
    ∃ enough, ∀ fuel ≥ enough, ((await source id fuel w).state.answerOf id).isSome = true := by
  obtain ⟨l, sound⟩ := reached.sound
  obtain ⟨n, a, place, mine⟩ := exists_attempt sound.kept there
  have first : Holds source strict w.state.callers.length n (.caller id) w :=
    ⟨reached, ⟨a, place, mine⟩, Nat.le_refl _⟩
  obtain ⟨fresh, light⟩ := exists_fresh source cost n
  have nears : Timeline.Nears (act source)
      (Holds source strict w.state.callers.length n (.caller id))
      (fun k => (k.answerOf id).isSome) (burden cost w.state.callers.length fresh n) := by
    refine nears finite positive light fun {u b} holds place => ?_
    obtain ⟨b', place', mine⟩ := holds.attempt
    rw [place] at place'
    cases place'
    obtain ⟨m, sound⟩ := holds.reached.sound
    exact isSome_answerOf sound.kept (List.mem_of_getElem? place) mine
  refine ⟨burden cost w.state.callers.length fresh n w + 1, fun fuel enough => ?_⟩
  exact nears.await first (by omega) (by omega)

end World

end ApiCatalog
