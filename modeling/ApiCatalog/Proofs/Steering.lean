/-
# ApiCatalog.Proofs.Steering -- every step is an order to the helm, or a few moves

Each part of a step is followed on the helm, as it is on the desk:

* notes, answers, the lock, the attempts of callers and the turns of others leave
  it alone;
* the end of an attempt of the loop is `Helm.learn` (`steer_conclude`);
* the turn of the loop is a tick, its end, or nothing (`steer_loopTurn`);
* a call that starts or stops the loop is an order (`order_startLoop`,
  `order_askToStop`).

`helm_of_step` puts the parts together.  What orders and moves keep, steps keep.
-/
import ApiCatalog.Proofs.Helm

namespace ApiCatalog

set_option autoImplicit false

namespace World

variable {τ σ κ : Type}

/-! ## Parts that leave the helm alone -/

theorem loopTurn?_other {target : Target κ} (other : target ≠ .loop) (relays : Nat) :
    loopTurn? ⟨target, relays⟩ = none := by
  cases target <;> first | rfl | exact absurd rfl other

theorem loopDue?_other {target : Target κ} (other : target ≠ .loop) (due : τ) :
    loopDue? ⟨due, target⟩ = none := by
  cases target <;> first | rfl | exact absurd rfl other

theorem helm_wake_other {target : Target κ} (other : target ≠ .loop) (relays : Nat)
    (w : World τ σ κ) : helm (w.wake target relays) = helm w := by
  simp [helm, Timeline.wake, loopTurn?_other other]

theorem helm_wakeAll (ids : List Nat) (relays : Nat) (w : World τ σ κ) :
    helm (w.wakeAll (ids.map .caller) relays) = helm w := by
  simp [helm, Timeline.wakeAll, List.filterMap_map, Function.comp_def, loopTurn?]

theorem helm_signalSyncWaiters (w : World τ σ κ) : helm (signalSyncWaiters w) = helm w :=
  helm_wakeAll _ _ w

theorem helm_disarm_other [DecidableEq κ] {target : Target κ} (other : target ≠ .loop)
    (w : World τ σ κ) : helm (w.disarm target) = helm w := by
  have same := Timeline.filterMap_disarm target loopDue? (loopDue?_other other) w
  simp only [helm, same]
  rfl

theorem helm_note_other {notes : List (Note τ)}
    (other : (notes.filterMap Note.event?).filter Event.isOfStart = []) (w : World τ σ κ) :
    helm (note notes w) = helm w := by
  have same : (w.state.note notes).notices = w.state.notices := by
    simp [Keeper.notices, Keeper.events, Keeper.note, other]
  simp only [helm, note, Timeline.modify, same]
  rfl

theorem helm_say_other {e : Event τ} (other : e.isOfStart = false) (w : World τ σ κ) :
    helm (say e w) = helm w :=
  helm_note_other (by simp [Note.event?, other]) w

theorem helm_say {e : Event τ} (ofStart : e.isOfStart = true) (w : World τ σ κ) :
    helm (say e w) = (helm w).notify e := by
  have more : (w.state.note [.event e]).notices = w.state.notices ++ [e] := by
    simp [Keeper.notices, Keeper.events, Keeper.note, Note.event?, ofStart]
  simp only [helm, say, note, Timeline.modify, more]
  rfl

/-- Answers are nothing to the helm. -/
theorem helm_answer (id : Nat) (answer : Answer) (w : World τ σ κ) :
    helm (w.modify (·.answer id answer)) = helm w := by
  have same : (w.state.answer id answer).calls = w.state.calls := by
    simp only [Keeper.calls, Keeper.answer]
    apply List.ext_getElem?
    intro n
    simp only [List.getElem?_map, List.getElem?_modify]
    cases w.state.callers[n]? with
    | none => rfl
    | some c => by_cases mine : id = n <;> simp [mine]
  simp only [helm, Timeline.modify, same]
  rfl

theorem helm_release (w : World τ σ κ) : helm (release w) = helm w := by
  unfold release
  dsimp only
  split
  · rfl
  · rename_i ticket rest queue
    have other : (Target.attempt ticket : Target κ) ≠ .loop := by simp
    exact helm_wake_other other 0 (w.modify fun k => { k with locked := false })

theorem helm_publish (snapshot : Snapshot τ) (w : World τ σ κ) :
    helm (publish snapshot w) = helm w := by
  rw [publish, helm_say_other rfl]
  exact helm_signalSyncWaiters
    (w.modify fun k => { k with snapshot := some snapshot, syncSignal := true })

theorem helm_judge (began : τ) (outcome : Outcome) (w : World τ σ κ) :
    helm (judge began outcome w).2 = helm w := by
  cases outcome with
  | error why =>
    simp only [judge]
    split
    · rfl
    · rw [recordFailure, helm_say_other rfl]
      rfl
  | ok listings =>
    have remarked : helm (note ((Snapshot.index w.state.strict listings).remarks.map .indexing) w) =
        helm w := by
      refine helm_note_other ?_ w
      simp [List.filterMap_map, Function.comp_def, Note.event?]
    simp only [judge]
    split
    · rw [helm_publish, remarked]
    · simp only
      split
      · exact remarked
      · exact remarked

theorem helm_follow [Clock τ] (ticket : Nat) (p : Progress τ σ κ) (w : World τ σ κ) :
    helm (w.follow (.fetch ticket) p) = helm w := by
  rw [Timeline.follow_eq]
  simp [helm, List.filterMap_map, Function.comp_def, loopTurn?, loopDue?]

theorem helm_answerStop (id : Nat) (cancelled : Bool) (w : World τ σ κ) :
    helm (answerStop id cancelled w) = helm w := by
  unfold answerStop
  split
  · exact helm_answer _ _ _
  · rw [helm_answer, helm_say_other rfl]

theorem helm_callerTurn [DecidableEq κ] (id : Nat) (w : World τ σ κ) :
    helm (callerTurn id w) = helm w := by
  have other : (Target.caller id : Target κ) ≠ .loop := fun same => nomatch same
  unfold callerTurn
  split
  · rw [← helm_disarm_other other w]
    exact helm_answer id _ (w.disarm (.caller id))
  · split
    · exact helm_answerStop _ _ _
    · rfl
  · rfl

/-! ## The loop goes on -/

theorem helm_wake (relays : Nat) (w : World τ σ κ) :
    helm (w.wake .loop relays) = (helm w).wake relays := by
  simp only [helm, Helm.wake, Timeline.wake, List.filterMap_append, ← Multiset.coe_add]
  rw [Multiset.add_comm]
  rfl

/-- Without its alarms a loop has none. -/
theorem helm_disarm [DecidableEq κ] (w : World τ σ κ) :
    helm (w.disarm .loop) = { helm w with dues := 0 } := by
  have none : (w.disarm .loop).alarms.filterMap loopDue? = [] := by
    refine List.filterMap_eq_nil_iff.2 fun alarm mem => ?_
    have other : alarm.target ≠ .loop := by simpa using (List.mem_filter.1 mem).2
    exact loopDue?_other other alarm.due
  simp only [helm, none]
  rfl

theorem helm_endLoop (cancelled : Bool) (w : World τ σ κ) :
    helm (endLoop cancelled w) = (helm w).endLoop cancelled := by
  simp only [endLoop, helm_wakeAll, helm_signalSyncWaiters]
  rfl

section

variable [Clock τ]

theorem helm_arm (delay : τ) (w : World τ σ κ) : helm (w.arm delay .loop) = (helm w).arm delay := by
  simp only [helm, Helm.arm, Timeline.arm, List.filterMap_append, ← Multiset.coe_add]
  rw [Multiset.add_comm]
  rfl

theorem helm_rest (interval began : τ) (w : World τ σ κ) :
    helm (rest interval began w) = (helm w).rest interval began := by
  simp only [rest, Helm.rest, show (helm w).now = w.now from rfl,
    show (helm w).stopAsked = w.state.stopAsked from rfl]
  split
  · split
    · exact helm_endLoop false w
    · exact helm_arm _ (w.modify (·.setPhase .resting))
  · exact helm_wake _ (w.modify (·.setPhase .pending))

theorem helm_afterLoopRefresh (verdict : Verdict) (w : World τ σ κ) :
    helm (afterLoopRefresh verdict w) = (helm w).goOn verdict := by
  simp only [afterLoopRefresh, Helm.goOn, show (helm w).loop = w.state.loop from rfl]
  cases loop : w.state.loop with
  | none => rfl
  | some l =>
    obtain ⟨interval, phase⟩ := l
    cases phase with
    | refreshing began =>
      cases verdict with
      | raised why =>
        cases why with
        | cancelled => exact helm_endLoop true w
        | _ => exact (helm_rest interval began _).trans (congrArg _ (helm_say_other rfl w))
      | _ => exact helm_rest interval began w
    | _ => rfl

theorem helm_waitForSync (id : Nat) (timeout : Option τ) (w : World τ σ κ) :
    helm (waitForSync id timeout w) = helm w := by
  have other : (Target.caller id : Target κ) ≠ .loop := fun same => nomatch same
  have woken : helm (if w.state.stopSignal then w.wake (.caller id) signalRelays else w) =
      helm w := by
    split
    · exact helm_wake_other other _ w
    · rfl
  unfold waitForSync
  split
  · exact helm_answer _ _ _
  · dsimp only
    split
    · rw [← woken]
      simp [helm, Timeline.arm, loopDue?_other other]
    · exact woken

end

/-! ## The course of an attempt -/

section

variable {w : World τ σ κ} {ended waiting : List (Attempt τ σ)} {a : Attempt τ σ}
  (attempts : w.state.attempts = ended ++ a :: waiting)
  (queued : ∀ b ∈ waiting, b.stage = .queued) (unjudged : a.verdict? = none)

include attempts queued unjudged

/-- How far an attempt has come is nothing to the times at which the loop asked, and its end is the
last that is known of the refreshes of the loop. -/
theorem rounds_setStage (stage : AttemptStage τ σ) :
    (w.state.setStage ended.length stage).rounds.map Attempt.arrived =
        w.state.rounds.map Attempt.arrived ∧
      (w.state.setStage ended.length stage).rounds.filterMap Attempt.finish? =
        w.state.rounds.filterMap Attempt.finish? ++
          if a.isOfLoop then (Attempt.finish? { a with stage }).toList else [] := by
  have unknown : ∀ b ∈ a :: waiting, b.finish? = none := by
    have unended {b : Attempt τ σ} (unjudged : b.verdict? = none) : b.finish? = none :=
      Option.map_eq_none_iff.1 (b.verdict?_of_finish?.trans unjudged)
    intro b mem
    rcases List.mem_cons.1 mem with rfl | later
    · exact unended unjudged
    · exact unended (Attempt.verdict?_of_queued (queued b later))
  have waits : (waiting.filter Attempt.isOfLoop).filterMap Attempt.finish? = [] :=
    List.filterMap_eq_nil_iff.2 fun b mem =>
      unknown b (List.mem_cons_of_mem _ (List.mem_of_mem_filter mem))
  have first : a.finish? = none := unknown a List.mem_cons_self
  have moved : (w.state.setStage ended.length stage).attempts = _ :=
    attempts_setStage attempts stage
  have mine : ({ a with stage } : Attempt τ σ).isOfLoop = a.isOfLoop := rfl
  rw [Keeper.rounds, Keeper.rounds, moved, attempts]
  simp only [List.filter_append, List.filter_cons, mine]
  cases a.isOfLoop with
  | false => simp [waits]
  | true => cases known : Attempt.finish? { a with stage } <;> simp [known, first, waits]

/-- A fetch goes on without an end. -/
theorem helm_taken (began : τ) (work : σ) (notes : List (SourceNote τ)) :
    helm (w.modify fun k =>
      (k.setStage ended.length (.fetching began work)).note (notes.map .source)) = helm w := by
  obtain ⟨ticks, endings⟩ := rounds_setStage attempts queued unjudged (.fetching began work)
  have none : (Attempt.finish? { a with stage := .fetching began work }).toList = [] := rfl
  rw [none, ite_self, List.append_nil] at endings
  refine (helm_note_other ?_ (w.modify (·.setStage ended.length (.fetching began work)))).trans ?_
  · simp [List.filterMap_map, Function.comp_def, Note.event?]
  · simp only [helm, Timeline.modify, ticks, endings]
    rfl

/-- The end of an attempt is taken down and the lock is released. -/
theorem helm_settled (began moment span : τ) (outcome : Outcome) (verdict : Verdict) :
    helm (release (w.modify fun k =>
      { k.setStage ended.length (.ended began moment outcome verdict) with
        meters := { k.meters with durations := k.meters.durations ++ [span] } })) =
      { helm w with
        endings := (helm w).endings ++ if a.isOfLoop then [(moment, verdict)] else [] } := by
  obtain ⟨ticks, endings⟩ :=
    rounds_setStage attempts queued unjudged (.ended began moment outcome verdict)
  rw [helm_release]
  simp only [helm]
  rw [← ticks, ← show _ = _ ++ (if a.isOfLoop then [(moment, verdict)] else []) from endings]
  rfl

variable [Clock τ] (busy : a.owner = .loop → w.state.loopBusy = true)

include busy

/-- The loop learns of the end of an attempt of its own. -/
theorem steer_conclude (began : τ) (outcome : Outcome) :
    (helm w).Moves (helm (conclude ended.length a.owner began outcome w)) := by
  have judged := helm_judge began outcome (note [.fetchEnded] w)
  have same := core_judge began outcome (note [.fetchEnded] w)
  rw [helm_note_other (by simp [Note.event?])] at judged
  simp only [conclude, judge_fst]
  generalize (judge began outcome (note [.fetchEnded] w)).2 = v at judged same ⊢
  have place : v.state.attempts = ended ++ a :: waiting :=
    (congrArg Core.attempts same).trans attempts
  generalize Verdict.of (note [.fetchEnded] w).state.strict outcome = verdict
  cases owner : a.owner with
  | caller id =>
    rw [goOn, helm_answer, helm_settled place queued unjudged, judged]
    simp only [Attempt.isOfLoop, owner, Bool.false_eq_true, if_false, List.append_nil]
    exact .refl
  | loop =>
    obtain ⟨interval, began', loop⟩ := Keeper.refreshing_of_loopBusy (busy owner)
    have now : v.now = w.now := congrArg Core.now same
    rw [goOn, helm_afterLoopRefresh, helm_settled place queued unjudged, judged, now]
    simp only [Attempt.isOfLoop, owner, if_true]
    exact .single (.learn loop _)

/-- What the fetch of an attempt does is nothing to the loop until it ends. -/
theorem steer_absorb (began : τ) (p : Progress τ σ κ) :
    (helm w).Moves (helm (absorb ended.length a.owner began p w)) := by
  let taken : World τ σ κ := (w.modify fun k =>
    (k.setStage ended.length (.fetching began p.work)).note (p.notes.map .source)).follow
      (.fetch ended.length) p
  have same : core taken = (core w).setStage ended.length (.fetching began p.work) := by
    rw [core_follow, core_taken]
  have place : taken.state.attempts =
      ended ++ { a with stage := .fetching began p.work } :: waiting :=
    (congrArg Core.attempts same).trans (attempts_setStage attempts _)
  have adds : helm taken = helm w := by
    rw [helm_follow, helm_taken attempts queued unjudged]
  unfold absorb
  cases p.outcome with
  | none =>
    show (helm w).Moves (helm taken)
    rw [adds]
    exact .refl
  | some outcome =>
    rw [← adds]
    refine steer_conclude place queued rfl ?_ began outcome
    intro mine
    exact (congrArg Core.loopBusy same).trans (busy mine)

theorem steer_begin (source : Source τ σ κ) :
    (helm w).Moves (helm (begin source ended.length a.owner w)) := by
  let locked : World τ σ κ := note [.fetchStarted] (say .refreshStarted
    (w.modify fun k => { k with locked := true }))
  have same : helm locked = helm w := by
    rw [helm_note_other (by simp [Note.event?]), helm_say_other rfl]
    rfl
  unfold begin
  rw [← same]
  exact steer_absorb (w := locked) attempts queued unjudged busy _ _

end

/-! ## Steps -/

variable [Clock τ] {source : Source τ σ κ} {strict : Bool} {w : World τ σ κ} {l : Line τ σ}

/-- An attempt that has come waits, or starts at once. -/
theorem steer_joined {owner : Owner} (busy : owner = .loop → w.state.loopBusy = true) :
    (helm (w.modify fun k =>
        { k with attempts := k.attempts ++ [{ owner, arrived := w.now }] })).Moves
      (helm (arrive source owner w)) := by
  have attempts : (w.modify fun k =>
      { k with attempts := k.attempts ++ [{ owner, arrived := w.now }] }).state.attempts =
        w.state.attempts ++ ⟨owner, w.now, .queued⟩ :: [] := rfl
  simp only [arrive]
  split
  · exact steer_begin attempts (by simp) rfl busy source
  · exact .refl

/-- An attempt of a caller is nothing to the loop. -/
theorem steer_arrive (id : Nat) : (helm w).Moves (helm (arrive source (.caller id) w)) := by
  have same : helm (w.modify fun k =>
      { k with attempts := k.attempts ++ [{ owner := .caller id, arrived := w.now }] }) =
        helm w := by
    simp [helm, Timeline.modify, Keeper.rounds, Attempt.isOfLoop, Keeper.calls, Keeper.notices,
      Keeper.events]
  rw [← same]
  exact steer_joined (by simp)

/-- The loop asks for a refresh. -/
theorem steer_tick {l : Loop τ} (there : w.state.loop = some l) :
    (helm w).tick.Moves
      (helm (w.modify (·.setPhase (.refreshing w.now)) |> arrive source .loop)) := by
  let asks : World τ σ κ := w.modify (·.setPhase (.refreshing w.now))
  have busy : asks.state.loopBusy = true := by
    simp [asks, Timeline.modify, Keeper.setPhase, Keeper.loopBusy, LoopPhase.isRefreshing, there]
  have ticks : helm (asks.modify fun k =>
      { k with attempts := k.attempts ++ [{ owner := .loop, arrived := asks.now }] }) =
        (helm w).tick := by
    simp [asks, helm, Helm.tick, Helm.setPhase, Timeline.modify, Keeper.setPhase, Keeper.rounds,
      List.filter_cons, Attempt.isOfLoop, Attempt.finish?, Keeper.calls, Keeper.notices,
      Keeper.events]
  rw [← ticks]
  exact steer_joined fun _ => busy

section

variable (sound : (core w).Sound source strict l)

include sound

theorem steer_attemptTurn (ticket : Nat) :
    (helm w).Moves (helm (attemptTurn source ticket w)) := by
  have kept := sound.kept
  unfold attemptTurn
  split
  · rename_i head rest attempt queue there
    split
    · rename_i may
      obtain ⟨rfl, free⟩ : head = ticket ∧ w.state.locked = false := by simpa using may
      obtain ⟨rfl, pending, waiting, attempts, queued⟩ := kept.orderly.split_head free queue there
      exact steer_begin (w := w.modify fun k => { k with queue := rest }) attempts
        (fun b mem => queued b (List.mem_cons_of_mem _ mem)) (kept.orderly.unknown pending).2.1
        (kept.told.loopBusy_of_pending pending) source
    · exact .refl
  · exact .refl

theorem steer_fetchTurn (ticket : Nat) (token : κ) :
    (helm w).Moves (helm (fetchTurn source ticket token w)) := by
  have kept := sound.kept
  unfold fetchTurn
  split
  · rename_i owner arrived began work there
    obtain ⟨rfl, pending, attempts⟩ := kept.orderly.split_current there rfl
    exact steer_absorb attempts kept.orderly.waiting rfl (kept.told.loopBusy_of_pending pending)
      began _
  · exact .refl

end

/-- The turn of a loop that waits for it is its end if it was asked to stop, else it asks for a
refresh. -/
theorem steer_loopTurn {rest : List (Turn (Target κ))}
    (turns : (helm w).turns = 0 ::ₘ (helm { w with ready := rest }).turns) :
    (helm w).Moves (helm (loopTurn source { w with ready := rest })) := by
  let left : World τ σ κ := { w with ready := rest }
  have goes {l : Loop τ} (there : w.state.loop = some l) (poised : l.phase.isPoised = true) :
      (helm w).Moves (helm (if left.state.stopAsked then endLoop false left
        else left.modify (·.setPhase (.refreshing left.now)) |> arrive source .loop)) := by
    split
    · rename_i asked
      rw [helm_endLoop]
      exact .single (.quit turns there poised asked)
    · rename_i unasked
      refine .head (.tick turns there poised (Bool.eq_false_iff.2 unasked)) ?_
      exact steer_tick (w := left) there
  unfold loopTurn
  split
  · rename_i interval there
    exact goes there rfl
  · rename_i interval there
    exact goes there rfl
  · rename_i pending resting
    refine .single (.miss turns fun l there => ?_)
    obtain ⟨interval, phase⟩ := l
    cases phase with
    | pending => exact absurd there (pending interval)
    | resting => exact absurd there (resting interval)
    | _ => rfl

section

variable [DecidableEq κ]

/-- The turn of somebody else is nothing to the loop, unless it is the end of a refresh of its
own. -/
theorem steer_act_other (sound : (core w).Sound source strict l) {target : Target κ}
    (other : target ≠ .loop) : (helm w).Moves (helm (act source target w)) := by
  cases target with
  | loop => exact absurd rfl other
  | attempt ticket => exact steer_attemptTurn sound ticket
  | fetch ticket token => exact steer_fetchTurn sound ticket token
  | caller id =>
    rw [act, helm_callerTurn]
    exact .refl

theorem steer_runTurn {turn : Turn (Target κ)} {rest : List (Turn (Target κ))}
    (inLine : w.ready.Perm (turn :: rest)) (sound : (core w).Sound source strict l) :
    (helm w).Moves (helm (Timeline.runTurn (act source) turn { w with ready := rest })) := by
  obtain ⟨target, relays⟩ := turn
  let left : World τ σ κ := { w with ready := rest }
  have turns : (helm w).turns = ↑((⟨target, relays⟩ :: rest).filterMap loopTurn?) :=
    Multiset.coe_eq_coe.2 (inLine.filterMap _)
  by_cases mine : target = .loop
  · subst mine
    have first : (helm w).turns = relays ::ₘ (helm left).turns := turns
    cases relays with
    | zero => exact steer_loopTurn first
    | succ relays =>
      show (helm w).Moves (helm (left.wake .loop relays))
      rw [helm_wake]
      exact .single (.defer first)
  · have same : helm left = helm w := by
      rw [List.filterMap_cons_none (loopTurn?_other mine relays)] at turns
      simp only [helm] at turns ⊢
      rw [turns]
    rw [← same]
    cases relays with
    | zero => exact steer_act_other (w := left) sound mine
    | succ relays =>
      show (helm left).Moves (helm (left.wake target relays))
      rw [helm_wake_other mine]
      exact .refl

/-! ## Calls -/

omit [Clock τ] [DecidableEq κ] in
/-- A call to start founds the loop in the beginning, and is ignored afterwards. -/
theorem helm_startLoop (id : Nat) (interval : τ) (w : World τ σ κ) :
    helm (startLoop id interval w) =
      if (helm w).lifecycle = .idle then (helm w).found interval |>.notify (.started interval)
      else (helm w).notify (.startIgnored (helm w).lifecycle) := by
  have life : (helm w).lifecycle = w.state.lifecycle := rfl
  unfold startLoop
  rw [helm_answer, life]
  split
  · rename_i idle
    rw [if_pos idle, helm_say rfl, helm_wake]
    rfl
  · rename_i busy
    rw [if_neg busy, helm_say rfl]

omit [Clock τ] [DecidableEq κ] in
theorem order_startLoop (id : Nat) (interval : τ) {h : Helm τ}
    (called : helm w = h.hear (.start interval)) :
    Helm.Order (.start interval) h (helm (startLoop id interval w)) := by
  have life : (helm w).lifecycle = h.lifecycle := by rw [called]; rfl
  rw [helm_startLoop, life, called]
  split
  · rename_i idle
    exact .found idle interval
  · rename_i busy
    exact .ignore busy interval

omit [Clock τ] in
theorem order_askToStop (id : Nat) {h : Helm τ} (called : helm w = h.hear .stop) :
    Helm.Order .stop h (helm (askToStop id w)) := by
  let asked : World τ σ κ := w.modify fun k => { k with stopAsked := true }
  have heard : helm asked = { h.hear .stop with stopAsked := true } := by rw [← called]; rfl
  have loop : h.loop = w.state.loop := (congrArg Helm.loop called).symm
  unfold askToStop
  dsimp only
  split
  · rename_i none
    rw [helm_answer, helm_signalSyncWaiters]
    have retired : helm (asked.modify fun k =>
        { k with lifecycle := .stopped, stopSignal := true }) =
        { h.hear .stop with stopAsked := true, lifecycle := .stopped } := by
      rw [← called]; rfl
    rw [show (helm _) = _ from retired]
    exact .retire (loop.trans none)
  · rename_i interval cancelled ended
    rw [helm_answerStop, show helm _ = _ from heard]
    exact .ask (loop.trans ended) rfl
  · rename_i interval rests
    rw [helm_wake]
    have roused : helm ((asked.disarm .loop).modify (·.setPhase .pending)) =
        Helm.setPhase .pending { h.hear .stop with stopAsked := true, dues := 0 } := by
      show (helm (asked.disarm .loop)).setPhase .pending = _
      rw [helm_disarm, heard]
    rw [show helm _ = _ from roused]
    exact .rouse (loop.trans rests)
  · rename_i l ended resting there
    rw [show helm _ = _ from heard]
    refine .ask (loop.trans there) ?_
    obtain ⟨interval, phase⟩ := l
    cases phase with
    | resting => exact absurd rfl (resting interval)
    | _ => rfl

omit [Clock τ] [DecidableEq κ] in
/-- A new call is heard. -/
theorem helm_newCall (c : Call τ) (w : World τ σ κ) :
    helm (w.modify fun k => { k with callers := k.callers ++ [{ call := c }] }) =
      (helm w).hear c := by
  simp [helm, Timeline.modify, Helm.hear, Keeper.calls, Keeper.notices, Keeper.events,
    Keeper.rounds]

/-- A call that starts or stops the loop is an order. -/
theorem order_call {c : Call τ} (orders : c.isOrder = true) (w : World τ σ κ) :
    Helm.Order c (helm w) (helm (call source c w)) := by
  have heard := helm_newCall c w
  unfold call
  cases c with
  | start interval => exact order_startLoop _ interval heard
  | stop => exact order_askToStop _ heard
  | _ => cases orders

/-- Any other call is heard, and may start a fetch. -/
theorem steer_call {c : Call τ} (other : c.isOrder = false) (w : World τ σ κ) :
    (helm w).Moves (helm (call source c w)) := by
  have heard := helm_newCall c w
  refine .head (.call other) ?_
  unfold call
  rw [← heard]
  cases c with
  | refresh =>
    exact steer_arrive (w := w.modify fun k =>
      { k with callers := k.callers ++ [{ call := .refresh }] }) w.state.callers.length
  | waitForSync timeout =>
    rw [helm_waitForSync]
  | _ => cases other

/-! ## Time -/

omit [DecidableEq κ] in
theorem steer_reach (moment : τ) (w : World τ σ κ) : (helm w).Moves (helm (w.reach moment)) := by
  unfold Timeline.reach
  split
  · rename_i later
    exact .single (.pass later)
  · exact .refl

omit [DecidableEq κ] in
/-- An alarm that goes off gives a turn to the loop, or to somebody else. -/
theorem steer_ring {alarm : Alarm τ (Target κ)} {others : List (Alarm τ (Target κ))}
    (set : w.alarms.Perm (alarm :: others)) : (helm w).Moves (helm (w.ring alarm others)) := by
  obtain ⟨due, target⟩ := alarm
  let left : World τ σ κ := { w with alarms := others }
  have dues : (helm w).dues = ↑((⟨due, target⟩ :: others).filterMap loopDue?) :=
    Multiset.coe_eq_coe.2 (set.filterMap _)
  by_cases mine : target = .loop
  · subst mine
    have first : (helm w).dues = due ::ₘ (helm left).dues := dues
    have reached : helm (left.reach due) =
        { helm w with
          now := if w.now < due then due else w.now
          dues := (helm left).dues } := by
      unfold Timeline.reach
      split <;> rfl
    rw [Timeline.ring, helm_wake, reached]
    exact .single (.ring first)
  · have same : helm left = helm w := by
      rw [List.filterMap_cons_none (loopDue?_other mine due)] at dues
      simp only [helm] at dues ⊢
      rw [dues]
    rw [Timeline.ring, helm_wake_other mine, ← same]
    exact steer_reach due left

/-- Every step is a call that starts or stops the loop, and so an order, or else a few moves. -/
theorem helm_of_step {v : World τ σ κ} (step : Step source v w)
    (sound : (core v).Sound source strict l) :
    (∃ c, w = call source c v ∧ Helm.Order c (helm v) (helm w)) ∨ (helm v).Moves (helm w) := by
  cases step with
  | call c =>
    cases orders : c.isOrder with
    | true => exact .inl ⟨c, rfl, order_call orders v⟩
    | false => exact .inr (steer_call orders v)
  | turn inLine => exact .inr (steer_runTurn inLine sound)
  | ring set => exact .inr (steer_ring set)
  | pass moment => exact .inr (steer_reach moment v)

end

end World

end ApiCatalog
