/-
# ApiCatalog.Proofs.AfterStop -- what still happens when a call to stop is answered

When a call to stop is answered the loop has ended, and it asks for no refresh
any more.  Nothing stops the callers: a call to refresh that waits for the lock
is served as before, and so is one that is made later.  Each of them starts a
fetch and may publish a snapshot (`stop_leaves_callers`).
-/
import ApiCatalog.Proofs.Stopping

namespace ApiCatalog

set_option autoImplicit false

namespace Core

variable {τ σ : Type} {c d : Core τ σ} {l : Line τ σ}

/-- No two attempts are made for one call. -/
theorem Kept.eq_of_caller (kept : c.Kept l) {i j : Nat} {a b : Attempt τ σ}
    (first : c.attempts[i]? = some a) (second : c.attempts[j]? = some b) {id : Nat}
    (mine : a.owner = .caller id) (mine' : b.owner = .caller id) : i = j := by
  have numbered := kept.told.numbered
  rw [kept.told.asked, ← kept.orderly.attempts, List.pairwise_map, List.pairwise_filterMap,
    List.pairwise_iff_getElem] at numbered
  have asked {a : Attempt τ σ} (mine : a.owner = .caller id) :
      a.asked? = some (id, a.verdict?.map World.answerOf) := by simp [Attempt.asked?, mine]
  obtain ⟨inside, rfl⟩ := List.getElem?_eq_some_iff.1 first
  obtain ⟨inside', rfl⟩ := List.getElem?_eq_some_iff.1 second
  rcases Nat.lt_trichotomy i j with before | same | after
  · exact absurd (numbered i j inside inside' before _ (asked mine) _ (asked mine'))
      (Nat.lt_irrefl id)
  · exact same
  · exact absurd (numbered j i inside' inside after _ (asked mine') _ (asked mine))
      (Nat.lt_irrefl id)

/-- Where the loop waits for no refresh and asks for none, whoever is not among those that have
ended is a caller. -/
theorem Kept.isCaller_of_late [Clock τ] (kept : c.Kept l) (idle : c.loopBusy = false)
    (acts : Relation.ReflTransGen Act c d)
    (same : d.attempts.countP Attempt.isOfLoop = c.attempts.countP Attempt.isOfLoop) {n : Nat}
    (late : l.ended.length ≤ n) {a : Attempt τ σ} (there : d.attempts[n]? = some a) :
    a.isOfLoop = false := by
  by_contra mine
  rw [Bool.not_eq_false] at mine
  -- all refreshes of the loop are found among the first again
  have early : c.attempts.countP Attempt.isOfLoop ≤
      (d.attempts.take l.ended.length).countP Attempt.isOfLoop := by
    apply countP_le_of_getElem?
    intro i b place ofLoop
    have ended := kept.isEnded_of_loop idle (List.mem_of_getElem? place) ofLoop
    have before := (kept.orderly.isEnded_iff place).1 ended
    obtain ⟨began, begun⟩ := Attempt.isStarted_iff.1 (Attempt.isStarted_of_isEnded ended)
    obtain ⟨b', place', owner, -⟩ := kept.began acts place begun
    refine ⟨b', by rw [List.getElem?_take_of_lt before, place'], ?_⟩
    exact Attempt.isOfLoop_iff.2 (owner.trans (Attempt.isOfLoop_iff.1 ofLoop))
  have further := countP_take_lt late there mine
  omega

end Core

namespace World

variable {τ σ κ : Type} [Clock τ] [DecidableEq κ] {source : Source τ σ κ} {strict : Bool}
  {v w : World τ σ κ}

/-- The snapshot stays, unless an attempt publishes one that had not ended before. -/
theorem exists_published (reached : Reachable source strict v) (onward : Run source v w)
    (changed : w.state.snapshot ≠ v.state.snapshot) : ∃ (n : Nat) (a : Attempt τ σ),
      v.state.completed ≤ n ∧ w.state.attempts[n]? = some a ∧ a.verdict? = some .published := by
  obtain ⟨l, sound⟩ := reached.sound
  obtain ⟨m, sound'⟩ := (reached.run onward).sound
  obtain ⟨more, split⟩ := (prefix_of_run reached onward).2
  have before := snapshot_eq sound
  have after := snapshot_eq sound'
  rw [← split] at after
  by_contra none
  refine changed (after.trans ((Ledger.snapshot_replay_of_kept fun fetch mem published => ?_).trans
    before.symm))
  obtain ⟨i, place⟩ := List.mem_iff_getElem?.1 mem
  have there : w.state.course[v.state.course.length + i]? = some fetch := by
    rw [← split, List.getElem?_append_right (Nat.le_add_right _ _), Nat.add_sub_cancel_left, place]
  obtain ⟨a, place', -, verdict⟩ := exists_of_course sound' there
  exact none ⟨_, a, v.state.length_course ▸ Nat.le_add_right _ _, place', published ▸ verdict⟩

/-- A call that has been made stays what it is. -/
theorem callers_of_run (reached : Reachable source strict v) (onward : Run source v w) {id : Nat}
    {c : Caller τ} (there : v.state.callers[id]? = some c) :
    ∃ answer, w.state.callers[id]? = some ⟨c.call, answer⟩ := by
  refine Reachable.keeps (P := fun d => ∃ answer, d.callers[id]? = some ⟨c.call, answer⟩) ?_
    reached onward ⟨c.answer, there⟩
  rintro d e step ⟨answer, there⟩
  cases step with
  | deeds deeds => exact deeds.call (c := ⟨c.call, answer⟩) there
  | @served number timeout rest turn waits =>
    refine ⟨if number = id then some (.truth d.syncSignal) else answer, ?_⟩
    rw [Desk.callers_answer (d := { d with turns := rest, alarms := _ }) there]
    split <;> rfl

/-- Once the keeper is stopped, whoever is not among those that have ended was asked for by a
caller. -/
theorem isCaller_of_stopped (reached : Reachable source strict v)
    (stopped : v.state.lifecycle = .stopped) (onward : Run source v w) {n : Nat}
    (late : v.state.completed ≤ n) {a : Attempt τ σ} (there : w.state.attempts[n]? = some a) :
    ∃ caller, a.owner = .caller caller := by
  obtain ⟨l, sound⟩ := reached.sound
  have completed : v.state.completed = l.ended.length := sound.kept.orderly.completed
  have other := sound.kept.isCaller_of_late (loopBusy_of_stopped reached stopped)
    (Core.acts_of_moves (moves_of_run onward)) (loopAttempts_of_run reached onward (.inr stopped))
    (completed ▸ late) there
  obtain ⟨owner, arrived, stage⟩ := a
  cases owner with
  | loop => cases other
  | caller caller => exact ⟨caller, rfl⟩

/-- The attempt of a call that has been answered has ended. -/
theorem lt_completed_of_answered (reached : Reachable source strict v) (onward : Run source v w)
    {n : Nat} {a : Attempt τ σ} (there : w.state.attempts[n]? = some a) {caller : Nat}
    (mine : a.owner = .caller caller) (answered : v.state.answerOf caller ≠ none) :
    n < v.state.completed := by
  obtain ⟨l, sound⟩ := reached.sound
  obtain ⟨m, sound'⟩ := (reached.run onward).sound
  obtain ⟨before, is⟩ := Option.ne_none_iff_exists'.1 answered
  obtain ⟨⟨call, -⟩, there', rfl⟩ := Option.bind_eq_some_iff.1 is
  -- the call was one to refresh then, since it is one now
  obtain ⟨now, called⟩ := (reached.run onward).manned a (List.mem_of_getElem? there) caller mine
  obtain ⟨later, same⟩ := callers_of_run reached onward there'
  cases called.symm.trans same
  obtain ⟨i, b, place, mine'⟩ := exists_attempt sound.kept there'
  have ended : b.isEnded = true := by
    rw [← isSome_answerOf sound.kept (List.mem_of_getElem? place) mine']
    exact Option.isSome_iff_ne_none.2 answered
  obtain ⟨began, begun⟩ := Attempt.isStarted_iff.1 (Attempt.isStarted_of_isEnded ended)
  obtain ⟨b', place', owner, -⟩ :=
    sound.kept.began (Core.acts_of_moves (moves_of_run onward)) place begun
  have same : i = n := sound'.kept.eq_of_caller place' there (owner.trans mine') mine
  rw [← same, show v.state.completed = l.ended.length from sound.kept.orderly.completed]
  exact (sound.kept.orderly.isEnded_iff place).1 ended

/-- Once a call to stop is answered, whoever still makes a fetch was asked for by a caller, and only
such a one changes the snapshot.  If everybody who ever calls for a refresh has been answered by
then, no fetch is started and the snapshot stays. -/
theorem stop_leaves_callers (reached : Reachable source strict v) {id : Nat} {answer : Answer}
    (answered : v.state.callers[id]? = some ⟨.stop, some answer⟩) (onward : Run source v w) :
    (∀ (n : Nat) (a : Attempt τ σ), v.state.completed ≤ n → w.state.attempts[n]? = some a →
      ∃ caller, a.owner = .caller caller) ∧
    (w.state.snapshot = v.state.snapshot ∨ ∃ (n : Nat) (a : Attempt τ σ) (caller : Nat),
      v.state.completed ≤ n ∧ w.state.attempts[n]? = some a ∧ a.owner = .caller caller ∧
        w.state.answerOf caller = some (.truth true)) ∧
    ((∀ (caller : Nat) (now : Option Answer), w.state.callers[caller]? = some ⟨.refresh, now⟩ →
        v.state.answerOf caller ≠ none) →
      w.state.fetches = v.state.fetches ∧ w.state.snapshot = v.state.snapshot) := by
  have stopped := stopped_of_answered reached answered
  have reached' := reached.run onward
  obtain ⟨l, sound⟩ := reached'.sound
  refine ⟨fun n a late => isCaller_of_stopped reached stopped onward late, ?_, ?_⟩
  · by_cases kept : w.state.snapshot = v.state.snapshot
    · exact .inl kept
    · obtain ⟨n, a, late, there, published⟩ := exists_published reached onward kept
      obtain ⟨caller, mine⟩ := isCaller_of_stopped reached stopped onward late there
      refine .inr ⟨n, a, caller, late, there, mine, ?_⟩
      rw [answerOf_eq sound.kept (List.mem_of_getElem? there) mine, published]
      rfl
  · intro everybody
    have none (n : Nat) (late : v.state.completed ≤ n) : w.state.attempts[n]? = none := by
      by_contra made
      obtain ⟨a, there⟩ := Option.ne_none_iff_exists'.1 made
      obtain ⟨caller, mine⟩ := isCaller_of_stopped reached stopped onward late there
      obtain ⟨now, called⟩ := reached'.manned a (List.mem_of_getElem? there) caller mine
      have early := lt_completed_of_answered reached onward there mine (everybody caller now called)
      omega
    have fetches : w.state.fetches ≤ v.state.fetches := by
      calc w.state.fetches ≤ w.state.attempts.length := List.countP_le_length
        _ ≤ v.state.completed := List.getElem?_eq_none_iff.1 (none _ (Nat.le_refl _))
        _ ≤ v.state.fetches := List.countP_mono_left fun a _ => Attempt.isStarted_of_isEnded
    refine ⟨Nat.le_antisymm fetches (fetches_le_of_run reached onward), ?_⟩
    by_contra changed
    obtain ⟨n, a, late, there, -⟩ := exists_published reached onward changed
    cases (none n late).symm.trans there

omit [Clock τ] in
/-- A call that is one to stop and has an answer. -/
theorem exists_answer {callers : List (Caller τ)} {id : Nat}
    (check : (callers[id]?).any (fun c => c.call.isStop && c.answer.isSome) = true) :
    ∃ answer, callers[id]? = some ⟨.stop, some answer⟩ := by
  obtain ⟨⟨c, answer⟩, there, both⟩ := (Option.any_eq_true _ _).1 check
  cases c <;> cases answer <;> simp [Call.isStop] at both
  exact ⟨_, there⟩

/-- A caller and the loop refresh, and the loop is stopped.  Nothing happens in the nine units after
that, while nobody calls; a call to refresh that comes then publishes a snapshot. -/
theorem stop_leaves_callers_unsteady :
    let source : Source Int Outcome Unit := .answering Source.unsteady
    let v := advance source 3 20 <| call source .stop <| advance source 3 20 <|
      call source (.start 5) <| call source .refresh (init true)
    let rested := advance source 9 20 v
    let called := call source .refresh rested
    v.state.lifecycle = .stopped ∧ v.state.fetches = 2 ∧
      rested.state.fetches = v.state.fetches ∧ rested.state.snapshot = v.state.snapshot ∧
      called.state.snapshot ≠ v.state.snapshot ∧
      ∃ (n : Nat) (a : Attempt Int Outcome) (caller : Nat), 2 ≤ n ∧
        called.state.attempts[n]? = some a ∧ a.owner = .caller caller ∧
        called.state.answerOf caller = some (.truth true) := by
  intro source v rested called
  have reached : Reachable source true v :=
    ((run_call .refresh _).trans (run_call (.start 5) _)).trans <|
      ((run_advance 3 20 _).trans (run_call .stop _)).trans (run_advance 3 20 _)
  have onward : Run source v rested := run_advance 9 20 v
  have check : (v.state.callers[2]?).any (fun c => c.call.isStop && c.answer.isSome) = true := by
    decide
  obtain ⟨answer, answered⟩ := exists_answer check
  have everybody : ((List.range rested.state.callers.length).all fun caller =>
      (v.state.answerOf caller).isSome) = true := by decide
  obtain ⟨-, -, quiet⟩ := stop_leaves_callers reached answered onward
  obtain ⟨fetches, snapshot⟩ := quiet fun caller now there => by
    have inside := (List.getElem?_eq_some_iff.1 there).1
    have isSome := List.all_eq_true.1 everybody caller (List.mem_range.2 inside)
    exact Option.isSome_iff_ne_none.1 isSome
  have before : v.state.snapshot.map (·.fetchedAt) = some 2 := by decide
  have after : called.state.snapshot.map (·.fetchedAt) = some 15 := by decide
  have changed : called.state.snapshot ≠ v.state.snapshot := by
    intro same
    rw [same, before] at after
    cases after
  have last : Run source rested called := run_call .refresh rested
  obtain ⟨-, published, -⟩ := stop_leaves_callers reached answered (onward.trans last)
  have completed : v.state.completed = 2 := by decide
  rw [completed] at published
  exact ⟨by decide, by decide, fetches, snapshot, changed, published.resolve_left changed⟩

/-- A call to refresh that comes after a call to stop has been answered starts a fetch and publishes
its snapshot: so both are possible at that time. -/
theorem refresh_after_stop :
    ¬ ∀ (source : Source Int Outcome Unit) (v w : World Int Outcome Unit) (id : Nat)
        (answer : Answer), Reachable source true v →
        v.state.callers[id]? = some ⟨.stop, some answer⟩ → Run source v w →
        w.state.fetches = v.state.fetches ∧ w.state.snapshot = v.state.snapshot := by
  intro never
  let source : Source Int Outcome Unit := .answering Source.unsteady
  let v := advance source 3 20 <| call source .stop <| settle source 20 <|
    call source (.start 5) (init true)
  have reached : Reachable source true v :=
    ((run_call (.start 5) _).trans (run_settle 20 _)).trans <|
      (run_call .stop _).trans (run_advance 3 20 _)
  have check : (v.state.callers[1]?).any (fun c => c.call.isStop && c.answer.isSome) = true := by
    decide
  obtain ⟨answer, answered⟩ := exists_answer check
  have same := (never source v (call source .refresh v) 1 answer reached answered
    (run_call .refresh v)).1
  have before : v.state.fetches = 1 := by decide
  have after : (call source .refresh v).state.fetches = 2 := by decide
  omega

end World

end ApiCatalog
