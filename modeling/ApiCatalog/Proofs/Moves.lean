/-
# ApiCatalog.Proofs.Moves -- every step is a few moves of the core

Each part of a step is followed on the core:

* a note that is `Silent`, a turn or an alarm that is put in line leave it alone
  (`core_note`, `core_wake`, `core_follow`);
* the end of a fetch is `Core.conclude` (`core_judge`, `core_settled`, `core_goOn`),
  after which the loop may come to its own end: hence `Core.Outlives`;
* a refresh that is asked for is a `join`, and a `start` where the lock is free
  (`moves_arrive`).

`moves_of_step` puts the parts together.  What moves keep, steps keep.
-/
import ApiCatalog.Proofs.Core

namespace ApiCatalog

set_option autoImplicit false

/-! ## Notes -/

/-- A note that is neither about the traffic of fetches nor a report of the loop. -/
def Note.Silent {τ : Type} (n : Note τ) : Prop :=
  n.report? = none ∧ Report.Traffic.fetchChange n = .other

theorem Report.Traffic.fetches_append {τ : Type} (journal notes : List (Note τ)) :
    fetches (journal ++ notes) = (notes.map fetchChange).foldl after (fetches journal) := by
  simp [fetches, ofChanges]

theorem Report.Traffic.fetches_append_of_silent {τ : Type} {notes : List (Note τ)}
    (silent : ∀ n ∈ notes, n.Silent) (journal : List (Note τ)) :
    fetches (journal ++ notes) = fetches journal := by
  rw [fetches_append]
  induction notes with
  | nil => rfl
  | cons n rest ih =>
    rw [List.map_cons, List.foldl_cons, (silent n (by simp)).2]
    exact ih fun m hm => silent m (List.mem_cons_of_mem _ hm)

theorem Keeper.reports_note {τ σ : Type} (k : Keeper τ σ) (notes : List (Note τ)) :
    (k.note notes).reports = k.reports ++ notes.filterMap Note.report? := by
  simp [Keeper.reports, Keeper.note]

/-! ## Answers -/

namespace Keeper

variable {τ σ : Type}

theorem askedFrom_append (offset : Nat) (first second : List (Caller τ)) :
    askedFrom offset (first ++ second) =
      askedFrom offset first ++ askedFrom (offset + first.length) second := by
  simp [askedFrom, List.zipIdx_append]

theorem askedFrom_cons (offset : Nat) (c : Caller τ) (rest : List (Caller τ)) :
    askedFrom offset (c :: rest) = (c.asked? offset).toList ++ askedFrom (offset + 1) rest := by
  cases asked : c.asked? offset <;> simp [askedFrom, asked]

theorem number_of_asked? {c : Caller τ} {number : Nat} {pair : Nat × Option Answer}
    (asked : c.asked? number = some pair) : number = pair.1 := by
  unfold Caller.asked? at asked
  split at asked <;> cases asked
  rfl

theorem bounds_of_mem_askedFrom {callers : List (Caller τ)} {offset : Nat}
    {pair : Nat × Option Answer} (mem : pair ∈ askedFrom offset callers) :
    offset ≤ pair.1 ∧ pair.1 < offset + callers.length := by
  obtain ⟨⟨c, id⟩, place, asked⟩ := List.mem_filterMap.1 mem
  obtain ⟨low, high, -⟩ := List.mem_zipIdx place
  have := number_of_asked? asked
  omega

/-- The calls to refresh, with their numbers. -/
theorem mem_asked_iff {k : Keeper τ σ} {pair : Nat × Option Answer} :
    pair ∈ k.asked ↔ ∃ c, k.callers[pair.1]? = some c ∧ c.asked? pair.1 = some pair := by
  constructor
  · intro mem
    obtain ⟨⟨c, number⟩, place, asked⟩ := List.mem_filterMap.1 mem
    cases number_of_asked? asked
    exact ⟨c, List.mk_mem_zipIdx_iff_getElem?.1 place, asked⟩
  · rintro ⟨c, place, asked⟩
    exact List.mem_filterMap.2 ⟨(c, pair.1), List.mk_mem_zipIdx_iff_getElem?.2 place, asked⟩

/-- The answer to a call is the one it is listed with. -/
theorem answerOf_of_mem_asked {k : Keeper τ σ} {id : Nat}
    {answer : Option Answer} (mem : (id, answer) ∈ k.asked) : k.answerOf id = answer := by
  obtain ⟨caller, place, asked⟩ := mem_asked_iff.1 mem
  unfold Caller.asked? at asked
  split at asked <;> cases asked
  rw [answerOf, place]
  rfl

theorem asked_answer (k : Keeper τ σ) (id : Nat) (answer : Answer) :
    (k.answer id answer).asked = deliver id answer k.asked := by
  show askedFrom 0 (k.callers.modify id _) = deliver id answer (askedFrom 0 k.callers)
  by_cases inside : id < k.callers.length
  · obtain ⟨before, c, after, split, place, modified⟩ :=
      List.exists_of_modify (fun c => { c with answer := some answer }) inside
    rw [modified, split, askedFrom_append, askedFrom_append, askedFrom_cons, askedFrom_cons,
      deliver_append, deliver_append]
    congr 1
    · symm
      apply deliver_of_ne
      intro pair mem
      have := bounds_of_mem_askedFrom mem
      omega
    · congr 1
      · cases call : c.call <;> simp [Caller.asked?, deliver, call, place]
      · symm
        apply deliver_of_ne
        intro pair mem
        have := bounds_of_mem_askedFrom mem
        omega
  · rw [List.modify_eq_self (by omega), deliver_of_ne]
    intro pair mem
    have := bounds_of_mem_askedFrom mem
    omega

end Keeper

namespace World

variable {τ σ κ : Type}

/-! ## What the parts of a step do to the core -/

@[simp] theorem core_wake (target : Target κ) (relays : Nat) (w : World τ σ κ) :
    core (w.wake target relays) = core w := rfl

@[simp] theorem core_wakeAll (targets : List (Target κ)) (relays : Nat) (w : World τ σ κ) :
    core (w.wakeAll targets relays) = core w := rfl

@[simp] theorem core_signalSyncWaiters (w : World τ σ κ) :
    core (signalSyncWaiters w) = core w := rfl

@[simp] theorem core_disarm [DecidableEq κ] (target : Target κ) (w : World τ σ κ) :
    core (w.disarm target) = core w := rfl

/-- Notes that are silent leave the core alone. -/
theorem core_note {notes : List (Note τ)} (silent : ∀ n ∈ notes, n.Silent) (w : World τ σ κ) :
    core (note notes w) = core w := by
  have reports : notes.filterMap Note.report? = [] :=
    List.filterMap_eq_nil_iff.2 fun n mem => (silent n mem).1
  simp only [core, note, Timeline.modify, Keeper.reports_note, reports, List.append_nil]
  simp only [Keeper.note, Report.Traffic.fetches_append_of_silent silent]
  rfl

theorem core_say {e : Event τ} (silent : (Note.event e).Silent) (w : World τ σ κ) :
    core (say e w) = core w :=
  core_note (by simpa using silent) w

theorem core_setPhase (phase : LoopPhase τ) (w : World τ σ κ) :
    core (w.modify (·.setPhase phase)) =
      { core w with loopBusy := w.state.loop.isSome && phase.isRefreshing } := by
  cases loop : w.state.loop <;>
    simp [core, Timeline.modify, Keeper.setPhase, Keeper.loopBusy, Keeper.ledger, Keeper.asked,
      Keeper.reports, loop]

/-- The loop does not wait for a refresh any more. -/
theorem core_setPhase_of_idle (phase : LoopPhase τ) (idle : phase.isRefreshing = false)
    (w : World τ σ κ) :
    core (w.modify (·.setPhase phase)) = { core w with loopBusy := false } := by
  rw [core_setPhase, idle, Bool.and_false]

theorem core_endLoop (cancelled : Bool) (w : World τ σ κ) :
    core (endLoop cancelled w) = { (core w).retire with loopBusy := false } := by
  simp only [endLoop, core_wakeAll, core_signalSyncWaiters]
  cases loop : w.state.loop <;>
    simp [core, Core.retire, Timeline.modify, Keeper.setPhase, Keeper.loopBusy, Keeper.ledger,
      Keeper.asked, Keeper.reports, loop, LoopPhase.isRefreshing]

/-! ## The loop goes on -/

theorem core_rest [Clock τ] (interval began : τ) (w : World τ σ κ) :
    Core.Outlives { core w with loopBusy := false } (core (rest interval began w)) := by
  simp only [rest]
  split
  · split
    · exact .inr (core_endLoop false w)
    · exact .inl (core_setPhase_of_idle .resting rfl w)
  · exact .inl (core_setPhase_of_idle .pending rfl w)

theorem core_report (why : Failure) (w : World τ σ κ) :
    core (say (if why.isBreach then .contractViolated why else .refreshCrashed why) w) =
      { core w with reports := (core w).reports ++ [why] } := by
  split <;>
    simp [core, say, note, Timeline.modify, Keeper.note, Keeper.reports, Note.report?,
      Keeper.loopBusy, Keeper.ledger, Keeper.asked, Report.Traffic.fetches_append,
      Report.Traffic.fetchChange, Report.Traffic.after]

theorem report_raised {why : Failure} (other : why ≠ .cancelled) :
    Verdict.report (.raised why) = [why] := by
  cases why <;> first | rfl | exact absurd rfl other

/-- A refresh of the loop that failed is reported, and the loop rests. -/
theorem afterLoopRefresh_raised [Clock τ] {why : Failure} (other : why ≠ .cancelled)
    {w : World τ σ κ} {interval began : τ}
    (loop : w.state.loop = some ⟨interval, .refreshing began⟩) :
    afterLoopRefresh (.raised why) w = rest interval began
      (say (if why.isBreach then .contractViolated why else .refreshCrashed why) w) := by
  unfold afterLoopRefresh
  rw [loop]
  cases why <;> first | rfl | exact absurd rfl other

/-- The loop goes on after its refresh; a loop that waits for none lets it pass. -/
theorem core_afterLoopRefresh [Clock τ] (verdict : Verdict) (w : World τ σ κ) :
    ((core w).goOn .loop verdict).Outlives (core (afterLoopRefresh verdict w)) := by
  -- a loop that waits for none takes no notice, in the world as in the core
  by_cases waits : ∃ interval began, w.state.loop = some ⟨interval, .refreshing began⟩
  · obtain ⟨interval, began, loop⟩ := waits
    have busy : (core w).loopBusy = true := by
      simp [core, Keeper.loopBusy, loop, LoopPhase.isRefreshing]
    simp only [Core.goOn, busy, if_true]
    cases verdict with
    | published =>
      simpa [afterLoopRefresh, loop, Verdict.report] using core_rest interval began w
    | kept why =>
      simpa [afterLoopRefresh, loop, Verdict.report] using core_rest interval began w
    | raised why =>
      by_cases cancelled : why = .cancelled
      · subst cancelled
        right
        simpa [afterLoopRefresh, loop, Verdict.report, Core.retire] using core_endLoop true w
      · have rested := core_rest interval began
          (say (if why.isBreach then .contractViolated why else .refreshCrashed why) w)
        rw [core_report] at rested
        rw [afterLoopRefresh_raised cancelled loop, report_raised cancelled]
        exact rested
  · have idle : (core w).loopBusy = false := by
      cases loop : w.state.loop with
      | none => simp [core, Keeper.loopBusy, loop]
      | some l =>
        obtain ⟨interval, phase⟩ := l
        cases phase <;> simp_all [core, Keeper.loopBusy, LoopPhase.isRefreshing]
    have same : afterLoopRefresh verdict w = w := by
      unfold afterLoopRefresh
      split
      · rename_i interval began loop
        exact absurd ⟨interval, began, loop⟩ waits
      · rfl
    left
    simp only [Core.goOn, idle, same, Bool.false_eq_true, if_false]
    rw [← idle]

theorem core_answer (id : Nat) (answer : Answer) (w : World τ σ κ) :
    core (w.modify (·.answer id answer)) =
      { core w with asked := deliver id answer (core w).asked } := by
  simp only [core, Timeline.modify, Keeper.asked_answer]
  rfl

theorem core_goOn [Clock τ] (owner : Owner) (verdict : Verdict) {c : Core τ σ} {w : World τ σ κ}
    (same : core w = c) : (c.goOn owner verdict).Outlives (core (goOn owner verdict w)) := by
  subst same
  cases owner with
  | loop => exact core_afterLoopRefresh verdict w
  | caller id => exact .inl (core_answer id _ w)

/-! ## The end of an attempt -/

theorem core_publish (snapshot : Snapshot τ) (w : World τ σ κ) :
    core (publish snapshot w) = { core w with ledger := ⟨some snapshot, none⟩ } := by
  rw [publish, core_say ⟨rfl, rfl⟩]
  rfl

theorem core_recordFailure (why : Failure) (w : World τ σ κ) :
    core (recordFailure why w) =
      { core w with ledger := { (core w).ledger with lastError := some why } } := by
  rw [recordFailure, core_say ⟨rfl, rfl⟩]
  rfl

theorem core_recordBreach (why : Failure) (w : World τ σ κ) :
    core (recordBreach why w) =
      { core w with ledger := { (core w).ledger with lastError := some why } } := rfl

/-- The remarks of indexing are silent. -/
theorem core_remarks (remarks : List Snapshot.Remark) (w : World τ σ κ) :
    core (note (remarks.map .indexing) w) = core w := by
  apply core_note
  intro n mem
  obtain ⟨remark, -, rfl⟩ := List.mem_map.1 mem
  exact ⟨rfl, rfl⟩

/-- The keeper judges the end of a fetch as the ledger does. -/
theorem core_judge (began : τ) (outcome : Outcome) (w : World τ σ κ) :
    core (judge began outcome w).2 =
      { core w with ledger := w.state.ledger.after w.state.strict began outcome } := by
  cases outcome with
  | error why =>
    cases why with
    | cancelled => rfl
    | _ => exact core_recordFailure _ w
  | ok listings =>
    simp only [judge, Ledger.after]
    cases indexed : (Snapshot.index w.state.strict listings).result with
    | ok entries => simp only [core_publish, core_remarks]
    | error why =>
      rcases Snapshot.refusal_of_index indexed with ⟨cause, rfl⟩ | rfl | rfl
      · simp only [Failure.isBreach, if_true, core_recordBreach, core_remarks]
        rfl
      · exact core_remarks _ w
      · exact core_remarks _ w

theorem core_release (w : World τ σ κ) : core (release w) = { core w with locked := false } := by
  unfold release
  dsimp only
  split <;> rfl

/-- A note that is no report counts for the traffic only. -/
theorem core_note_single {n : Note τ} (unreported : n.report? = none) (w : World τ σ κ) :
    core (note [n] w) =
      { core w with traffic := (core w).traffic.after (Report.Traffic.fetchChange n) } := by
  simp [core, note, Timeline.modify, Keeper.note, Keeper.reports, unreported, Keeper.loopBusy,
    Keeper.ledger, Keeper.asked, Report.Traffic.fetches_append]

/-- The end of an attempt is taken down and the lock is released. -/
theorem core_settled (ticket : Nat) (stage : AttemptStage τ σ) (timed : Meters τ → Meters τ)
    (w : World τ σ κ) :
    core (release (w.modify fun k =>
      { k.setStage ticket stage with meters := timed k.meters })) =
      { (core w).setStage ticket stage with locked := false } :=
  core_release _

theorem core_conclude [Clock τ] (ticket : Nat) (owner : Owner) (began : τ) (outcome : Outcome)
    (w : World τ σ κ) :
    ((core w).conclude ticket owner began outcome).Outlives
      (core (conclude ticket owner began outcome w)) := by
  have judged := core_judge began outcome (note [.fetchEnded] w)
  rw [core_note_single rfl] at judged
  simp only [conclude, judge_fst]
  generalize (judge began outcome (note [.fetchEnded] w)).2 = v at judged ⊢
  have now : v.now = w.now := congrArg Core.now judged
  refine core_goOn owner _ ?_
  rw [core_settled _ _ (fun m => { m with durations := m.durations ++ [v.now - began] }), judged,
    now]
  rfl

/-! ## The course of an attempt -/

theorem core_follow [Clock τ] {ω : Type} (lift : κ → Target κ) (p : Progress τ ω κ)
    (w : World τ σ κ) : core (w.follow lift p) = core w := by
  have turns : ∀ (turns : List (κ × Nat)) (v : World τ σ κ),
      core (turns.foldl (fun t turn => t.wake (lift turn.1) turn.2) v) = core v := by
    intro turns
    induction turns with
    | nil => exact fun v => rfl
    | cons turn rest ih => exact fun v => ih _
  have delays : ∀ (delays : List (τ × κ)) (v : World τ σ κ),
      core (delays.foldl (fun t delay => t.arm delay.1 (lift delay.2)) v) = core v := by
    intro delays
    induction delays with
    | nil => exact fun v => rfl
    | cons delay rest ih => exact fun v => ih _
  exact (delays p.delays _).trans (turns p.turns w)

/-- What a source notes is silent. -/
theorem core_taken (ticket : Nat) (stage : AttemptStage τ σ) (notes : List (SourceNote τ))
    (w : World τ σ κ) :
    core (w.modify fun k => (k.setStage ticket stage).note (notes.map .source)) =
      (core w).setStage ticket stage := by
  refine (core_note ?_ (w.modify (·.setStage ticket stage))).trans rfl
  intro n mem
  obtain ⟨m, -, rfl⟩ := List.mem_map.1 mem
  exact ⟨rfl, rfl⟩

theorem core_absorb [Clock τ] (ticket : Nat) (owner : Owner) (began : τ) (p : Progress τ σ κ)
    (w : World τ σ κ) :
    ((core w).absorb ticket owner began p).Outlives (core (absorb ticket owner began p w)) := by
  have taken := core_taken ticket (.fetching began p.work) p.notes w
  simp only [absorb, Core.absorb]
  cases ends : p.outcome with
  | none =>
    left
    rw [core_follow, taken]
  | some outcome =>
    rw [← taken, ← core_follow (.fetch ticket) p]
    exact core_conclude ticket owner began outcome _

theorem core_begin [Clock τ] (source : Source τ σ κ) (ticket : Nat) (owner : Owner)
    {w : World τ σ κ} {queue : List Nat} (left : w.state.queue = queue) :
    (((core w).take queue).absorb ticket owner w.now
      (source.start w.state.fetches)).Outlives (core (begin source ticket owner w)) := by
  have opened : core (note [.fetchStarted] (say .refreshStarted
      (w.modify fun k => { k with locked := true }))) = (core w).take queue := by
    rw [core_note_single rfl, core_say ⟨rfl, rfl⟩, ← left]
    rfl
  rw [← opened]
  exact core_absorb ..

/-! ## Turns and calls -/

/-- The answer to a call that is none to refresh is nothing to the core. -/
theorem core_answer_other {id : Nat} {c : Caller τ} {w : World τ σ κ}
    (there : w.state.callers[id]? = some c) (other : ∀ number, c.asked? number = none)
    (answer : Answer) : core (w.modify (·.answer id answer)) = core w := by
  rw [core_answer, deliver_of_ne]
  intro pair mem same
  obtain ⟨caller, place, asked⟩ := Keeper.mem_asked_iff.1 mem
  rw [same, there] at place
  cases place
  rw [other] at asked
  cases asked

theorem core_answerStop {id : Nat} {w : World τ σ κ}
    (there : w.state.callers[id]? = some ⟨.stop, none⟩) (cancelled : Bool) :
    core (answerStop id cancelled w) = core w := by
  unfold answerStop
  split
  · exact core_answer_other there (fun _ => rfl) _
  · exact (core_answer_other (w := say .stopped w) there (fun _ => rfl) _).trans
      (core_say ⟨rfl, rfl⟩ w)

theorem core_callerTurn [DecidableEq κ] (id : Nat) (w : World τ σ κ) :
    core (callerTurn id w) = core w := by
  unfold callerTurn
  split
  · rename_i timeout there
    exact core_answer_other (w := w.disarm (.caller id)) there (fun _ => rfl) _
  · rename_i there
    split
    · exact core_answerStop there _
    · rfl
  · rfl

/-- A new call is something to the core if it is one to refresh. -/
theorem core_newCall (c : Caller τ) (w : World τ σ κ) :
    core (w.modify fun k => { k with callers := k.callers ++ [c] }) =
      { core w with asked := (core w).asked ++ (c.asked? w.state.callers.length).toList } := by
  have asked : Keeper.askedFrom 0 (w.state.callers ++ [c]) =
      w.state.asked ++ (c.asked? w.state.callers.length).toList := by
    rw [Keeper.askedFrom_append, Keeper.askedFrom_cons, Nat.zero_add]
    simp [Keeper.askedFrom, Keeper.asked]
  simp only [core, Timeline.modify, Keeper.asked, asked]
  rfl

theorem core_newCall_other {c : Caller τ} (other : ∀ number, c.asked? number = none)
    (w : World τ σ κ) :
    core (w.modify fun k => { k with callers := k.callers ++ [c] }) = core w := by
  rw [core_newCall, other, Option.toList_none, List.append_nil]

theorem loopBusy_of_phase {w : World τ σ κ} {interval : τ} {phase : LoopPhase τ}
    (loop : w.state.loop = some ⟨interval, phase⟩) : (core w).loopBusy = phase.isRefreshing := by
  simp [core, Keeper.loopBusy, loop]

section

variable [Clock τ] {source : Source τ σ κ}

/-- A refresh that is asked for joins the queue, and starts at once where it is free to. -/
theorem moves_arrive {owner : Owner} {c : Core τ σ} {w : World τ σ κ} (admitted : c.Admits owner)
    (expected : core w = c.expect owner) : c.Moves source (core (arrive source owner w)) := by
  have joined : c.Moves source ((core w).enqueue owner) := by
    rw [expected]
    exact Relation.ReflTransGen.single (.join admitted)
  simp only [arrive]
  split
  · rename_i free
    obtain ⟨unlocked, empty⟩ : w.state.locked = false ∧ w.state.queue = [] := by
      simpa using free
    have queue : ((core w).enqueue owner).queue = [w.state.attempts.length] := by
      simp [Core.enqueue, core, empty]
    have there : ((core w).enqueue owner).attempts[w.state.attempts.length]? =
        some { owner, arrived := w.now } := by
      simp [Core.enqueue, core]
    refine Core.Moves.outlive (joined.tail (.start unlocked queue there)) ?_
    exact core_begin source _ owner (w := w.modify fun k =>
      { k with attempts := k.attempts ++ [{ owner, arrived := w.now }] }) empty
  · exact joined

theorem moves_attemptTurn (ticket : Nat) (w : World τ σ κ) :
    (core w).Moves source (core (attemptTurn source ticket w)) := by
  unfold attemptTurn
  split
  · rename_i head rest attempt queue there
    split
    · rename_i may
      obtain ⟨rfl, free⟩ : head = ticket ∧ w.state.locked = false := by simpa using may
      exact Core.Moves.outlive (Relation.ReflTransGen.single (.start free queue there))
        (core_begin source head attempt.owner (w := w.modify fun k => { k with queue := rest }) rfl)
    · exact .refl
  · exact .refl

theorem moves_fetchTurn (ticket : Nat) (token : κ) (w : World τ σ κ) :
    (core w).Moves source (core (fetchTurn source ticket token w)) := by
  unfold fetchTurn
  split
  · rename_i owner arrived began work there
    exact Core.Moves.outlive (Relation.ReflTransGen.single (.resume there token))
      (core_absorb ticket owner began _ w)
  · exact .refl

theorem moves_endLoop (cancelled : Bool) {w : World τ σ κ} (idle : (core w).loopBusy = false) :
    (core w).Moves source (core (endLoop cancelled w)) := by
  rw [core_endLoop, ← idle]
  exact Relation.ReflTransGen.single (.retire _)

/-- The turn of a loop that does not wait for a refresh: it ends or asks for one. -/
theorem moves_tick {w : World τ σ κ} {interval : τ} {phase : LoopPhase τ}
    (loop : w.state.loop = some ⟨interval, phase⟩) (waits : phase.isRefreshing = false) :
    (core w).Moves source (core (if w.state.stopAsked then endLoop false w
      else w.modify (·.setPhase (.refreshing w.now)) |> arrive source .loop)) := by
  have idle : (core w).loopBusy = false := (loopBusy_of_phase loop).trans waits
  have hasLoop : w.state.loop.isSome = true := by simp [loop]
  split
  · exact moves_endLoop false idle
  · refine moves_arrive ⟨hasLoop, idle⟩ ?_
    rw [core_setPhase, hasLoop]
    rfl

theorem moves_loopTurn (w : World τ σ κ) :
    (core w).Moves source (core (loopTurn source w)) := by
  unfold loopTurn
  split
  · rename_i interval loop
    exact moves_tick loop rfl
  · rename_i interval loop
    exact moves_tick loop rfl
  · exact .refl

theorem moves_act [DecidableEq κ] (target : Target κ) (w : World τ σ κ) :
    (core w).Moves source (core (act source target w)) := by
  cases target with
  | loop => exact moves_loopTurn w
  | attempt ticket => exact moves_attemptTurn ticket w
  | fetch ticket token => exact moves_fetchTurn ticket token w
  | caller id =>
    simp only [act, core_callerTurn]
    exact .refl

theorem moves_startLoop {id : Nat} {interval : τ} {w : World τ σ κ}
    (there : w.state.callers[id]? = some ⟨.start interval, none⟩) :
    (core w).Moves source (core (startLoop id interval w)) := by
  unfold startLoop
  rw [core_answer_other (c := ⟨.start interval, none⟩) ?_ fun _ => rfl]
  · split
    · rename_i idle
      rw [core_say ⟨rfl, rfl⟩]
      exact Relation.ReflTransGen.single (.found idle)
    · rw [core_say ⟨rfl, rfl⟩]
      exact .refl
  · split <;> exact there

theorem moves_askToStop [DecidableEq κ] {id : Nat} {w : World τ σ κ}
    (there : w.state.callers[id]? = some ⟨.stop, none⟩) :
    (core w).Moves source (core (askToStop id w)) := by
  unfold askToStop
  dsimp only
  split
  · rw [core_answer_other (c := ⟨.stop, none⟩) ?_ fun _ => rfl]
    · exact Relation.ReflTransGen.single (.retire _)
    · exact there
  · rw [core_answerStop ?_]
    · exact .refl
    · exact there
  · rename_i interval loop
    have idle : (core w).loopBusy = false := loopBusy_of_phase loop
    rw [core_wake, core_setPhase_of_idle .pending rfl, core_disarm]
    show (core w).Moves source { core w with loopBusy := false }
    rw [← idle]
    exact .refl
  · exact .refl

theorem core_waitForSync {id : Nat} (timeout : Option τ) {w : World τ σ κ}
    (there : w.state.callers[id]? = some ⟨.waitForSync timeout, none⟩) :
    core (waitForSync id timeout w) = core w := by
  unfold waitForSync
  split
  · exact core_answer_other there (fun _ => rfl) _
  · split <;> split <;> rfl

theorem moves_call [DecidableEq κ] (c : Call τ) (w : World τ σ κ) :
    (core w).Moves source (core (call source c w)) := by
  have there : (w.state.callers ++ [{ call := c }])[w.state.callers.length]? =
      some { call := c } := by
    simp
  unfold call
  cases c with
  | refresh =>
    refine moves_arrive (fun pair mem => ?_) (core_newCall _ w)
    have := Keeper.bounds_of_mem_askedFrom mem
    omega
  | start interval =>
    rw [← core_newCall_other (c := { call := .start interval }) (fun _ => rfl) w]
    exact moves_startLoop there
  | stop =>
    rw [← core_newCall_other (c := { call := .stop }) (fun _ => rfl) w]
    exact moves_askToStop there
  | waitForSync timeout =>
    rw [← core_newCall_other (c := { call := .waitForSync timeout }) (fun _ => rfl) w]
    dsimp only
    rw [core_waitForSync timeout ?_]
    · exact .refl
    · exact there

theorem moves_reach (moment : τ) (w : World τ σ κ) :
    (core w).Moves source (core (w.reach moment)) := by
  unfold Timeline.reach
  split
  · rename_i later
    exact Relation.ReflTransGen.single (.pass later)
  · exact .refl

/-- Every step is a few moves of the core. -/
theorem moves_of_step [DecidableEq κ] {v w : World τ σ κ} (step : Step source v w) :
    (core v).Moves source (core w) := by
  cases step with
  | call c => exact moves_call c v
  | @turn turn rest inLine =>
    obtain ⟨target, relays⟩ := turn
    cases relays with
    | zero => exact moves_act target { v with ready := rest }
    | succ relays => exact .refl
  | @ring alarm others set => exact moves_reach alarm.due { v with alarms := others }
  | pass moment => exact moves_reach moment v

end

end World

end ApiCatalog
