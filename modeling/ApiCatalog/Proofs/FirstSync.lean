/-
# ApiCatalog.Proofs.FirstSync -- waiting for the first snapshot

A call that waits for the first snapshot is woken by three things: a snapshot is
published, the loop ends or will never run, its time is up.  Whichever it was,
the answer is given by what is the case when its turn comes.

`Desk.Awaits` goes along with one such call from the moment at which it is made:
its alarm is set for the end of its time, and it has no turn in line without a
reason.
-/
import ApiCatalog.Proofs.Fetches
import ApiCatalog.Proofs.Tidy

namespace ApiCatalog

set_option autoImplicit false

namespace Desk

variable {τ : Type} [Clock τ]

/-- A call that waits for the first snapshot has a reason to be woken: something is signalled, or
its time is up. -/
def Rouses (due : Option τ) (d : Desk τ) : Prop :=
  d.syncSignal = true ∨ d.stopSignal = true ∨ ∃ moment, due = some moment ∧ ¬ d.now < moment

/-- A call waits for the first snapshot, until a time is up if there is one. -/
structure Awaits (id : Nat) (timeout due : Option τ) (d : Desk τ) : Prop where
  call : ∃ answer, d.callers[id]? = some ⟨.waitForSync timeout, answer⟩
  alarm : ∀ alarm ∈ d.alarms, alarm.2 = id → due = some alarm.1
  reason : id ∈ d.turns → d.Rouses due
  armed : d.callers[id]? = some ⟨.waitForSync timeout, none⟩ → ∀ moment, due = some moment →
    (moment, id) ∈ d.alarms ∨ id ∈ d.turns

variable {id : Nat} {timeout due : Option τ} {d e : Desk τ}

/-- With time no reason goes away. -/
theorem Rouses.later [IsStrictOrder τ (· < ·)] (rouses : d.Rouses due) {now : τ}
    (later : now = d.now ∨ d.now < now) (turns : Multiset Nat) (alarms : Multiset (τ × Nat)) :
    ({ d with now, turns, alarms } : Desk τ).Rouses due := by
  rcases rouses with synced | stopped | ⟨moment, is, up⟩
  · exact .inl synced
  · exact .inr (.inl stopped)
  · refine .inr (.inr ⟨moment, is, fun early => up ?_⟩)
    rcases later with rfl | later
    · exact early
    · exact IsTrans.trans _ _ _ later early

theorem Awaits.lt (awaits : d.Awaits id timeout due) : id < d.callers.length := by
  obtain ⟨answer, there⟩ := awaits.call
  exact (List.getElem?_eq_some_iff.1 there).1

/-- A call goes on waiting if its alarm and its turn stay and it gets none without a reason. -/
theorem Awaits.mono (awaits : d.Awaits id timeout due)
    (callers : ∀ answer, d.callers[id]? = some ⟨.waitForSync timeout, answer⟩ →
      e.callers[id]? = some ⟨.waitForSync timeout, answer⟩)
    (alarm : ∀ alarm ∈ e.alarms, alarm.2 = id → alarm ∈ d.alarms)
    (reason : id ∈ e.turns → e.Rouses due)
    (armed : d.callers[id]? = some ⟨.waitForSync timeout, none⟩ → ∀ moment,
      (moment, id) ∈ d.alarms ∨ id ∈ d.turns → (moment, id) ∈ e.alarms ∨ id ∈ e.turns) :
    e.Awaits id timeout due := by
  obtain ⟨answer, there⟩ := awaits.call
  have same := callers answer there
  refine ⟨⟨answer, same⟩, fun a mem mine => awaits.alarm a (alarm a mem mine) mine, reason, ?_⟩
  intro waits moment is
  have before : d.callers[id]? = some ⟨.waitForSync timeout, none⟩ := by
    rw [there, ← same, waits]
  exact armed before moment (awaits.armed before moment is)

theorem Awaits.deed [IsStrictOrder τ (· < ·)] (awaits : d.Awaits id timeout due)
    (deed : Deed d e) : e.Awaits id timeout due := by
  have callers : ∀ answer, d.callers[id]? = some ⟨.waitForSync timeout, answer⟩ →
      e.callers[id]? = some ⟨.waitForSync timeout, answer⟩ := fun _ => deed.syncWait
  have woken (sort : Call τ → Bool) : id ∈ d.turns → id ∈ (d.wakeAll sort).turns :=
    fun mem => mem_turns_wakeAll.2 (.inl mem)
  cases deed with
  | wait timeout' unsignalled =>
    -- the new call is another one
    have other : d.callers.length ≠ id := Nat.ne_of_gt awaits.lt
    refine awaits.mono callers (fun alarm mem mine => ?_) (fun mem => ?_) fun _ moment before => ?_
    · rcases Multiset.mem_add.1 mem with old | new
      · exact old
      · rw [Multiset.mem_coe, Option.mem_toList] at new
        obtain ⟨span, -, rfl⟩ := Option.map_eq_some_iff.1 new
        exact absurd mine other
    · rcases Multiset.mem_add.1 mem with old | new
      · exact awaits.reason old
      · rw [Multiset.mem_coe] at new
        split at new
        · exact absurd (List.mem_singleton.1 new).symm other
        · cases new
    · exact before.imp (fun mem => Multiset.mem_add.2 (.inl mem))
        fun mem => Multiset.mem_add.2 (.inl mem)
  | publish =>
    exact awaits.mono callers (fun _ mem _ => mem) (fun _ => .inl rfl)
      fun _ _ before => before.imp_right (woken _)
  | retire none =>
    exact awaits.mono callers (fun _ mem _ => mem) (fun _ => .inr (.inl rfl))
      fun _ _ before => before.imp_right (woken _)
  | endLoop there running cancelled =>
    refine awaits.mono callers (fun _ mem _ => mem) (fun _ => .inr (.inl rfl))
      fun _ _ before => before.imp_right fun mem => ?_
    exact mem_turns_wakeAll.2 (.inl (mem_turns_wakeAll.2 (.inl mem)))
  | @drop number rest turn other =>
    refine awaits.mono callers (fun _ mem _ => mem)
      (fun mem => awaits.reason (turn ▸ Multiset.mem_cons_of_mem mem)) fun waits moment before => ?_
    refine before.imp_right fun mem => ?_
    rw [turn] at mem
    rcases Multiset.mem_cons.1 mem with rfl | left
    · exact absurd waits (other timeout)
    · exact left
  | @ring moment number others set =>
    have mine : ∀ alarm ∈ others, alarm ∈ d.alarms := fun _ mem =>
      set ▸ Multiset.mem_cons_of_mem mem
    refine awaits.mono callers (fun alarm mem _ => mine alarm mem) (fun mem => ?_)
      fun _ limit before => ?_
    · rcases Multiset.mem_add.1 mem with old | new
      · refine (awaits.reason old).later ?_ _ _
        split
        · exact .inr ‹_›
        · exact .inl rfl
      · cases List.mem_singleton.1 new
        refine .inr (.inr ⟨moment, awaits.alarm _ (set ▸ Multiset.mem_cons_self _ _) rfl, ?_⟩)
        dsimp only
        split
        · exact irrefl moment
        · assumption
    · rw [set] at before
      rcases before with alarm | turn
      · rcases Multiset.mem_cons.1 alarm with this | left
        · cases this
          exact .inr (Multiset.mem_add.2 (.inr (by simp)))
        · exact .inl left
      · exact .inr (Multiset.mem_add.2 (.inl turn))
  | @pass moment later =>
    exact awaits.mono callers (fun _ mem _ => mem)
      (fun mem => (awaits.reason mem).later (.inr later) _ _) fun _ _ before => before
  | _ => exact awaits.mono callers (fun _ mem _ => mem) awaits.reason (fun _ _ h => h)

theorem Awaits.step [IsStrictOrder τ (· < ·)] (awaits : d.Awaits id timeout due)
    (step : d.Step e) : e.Awaits id timeout due := by
  cases step with
  | @served number timeout' rest turn there =>
    have left : ∀ number ∈ rest, number ∈ d.turns := fun _ mem =>
      turn ▸ Multiset.mem_cons_of_mem mem
    obtain ⟨answer, waits⟩ := awaits.call
    by_cases mine : number = id
    · subst mine
      have answered : (d.answer number (.truth d.syncSignal)).callers[number]? = _ :=
        callers_answer waits _
      rw [if_pos rfl] at answered
      refine ⟨⟨_, answered⟩, fun alarm mem => ?_, fun mem => awaits.reason (left _ mem), ?_⟩
      · exact awaits.alarm alarm (Multiset.mem_of_mem_filter mem)
      · intro unanswered
        cases answered.symm.trans unanswered
    · refine awaits.mono (fun answer before => ?_) (fun _ mem _ => Multiset.mem_of_mem_filter mem)
        (fun mem => awaits.reason (left _ mem)) fun _ moment before => ?_
      · exact (callers_answer before _).trans (by rw [if_neg mine])
      · rw [turn] at before
        refine before.imp (fun alarm => ?_) fun mem => ?_
        · exact Multiset.mem_filter.2 ⟨alarm, Ne.symm mine⟩
        · exact (Multiset.mem_cons.1 mem).resolve_left (Ne.symm mine)
  | deeds deeds => exact deeds.keeps (fun _ _ deed awaits => Awaits.deed awaits deed) awaits

/-- A call that waits is answered by its own turn and by nothing else, with what is signalled, and
nothing else happens at the same time. -/
theorem Step.of_answered (step : d.Step e)
    (waits : d.callers[id]? = some ⟨.waitForSync timeout, none⟩) {answer : Answer}
    (answered : e.callers[id]? = some ⟨.waitForSync timeout, some answer⟩) :
    id ∈ d.turns ∧ answer = .truth d.syncSignal ∧
      ∃ callers turns alarms, e = { d with callers, turns, alarms } := by
  cases step with
  | @served number timeout' rest turn there =>
    have same : (d.answer number (.truth d.syncSignal)).callers[id]? = _ := callers_answer waits _
    by_cases mine : number = id
    · rw [if_pos mine] at same
      cases answered.symm.trans same
      exact ⟨turn ▸ mine ▸ Multiset.mem_cons_self _ _, rfl, _, _, _, rfl⟩
    · rw [if_neg mine] at same
      cases answered.symm.trans same
  | deeds deeds =>
    have still := deeds.keeps
      (P := fun d => d.callers[id]? = some ⟨.waitForSync timeout, none⟩)
      (fun _ _ deed there => deed.syncWait there) waits
    cases answered.symm.trans still

/-- A call to wait that has been answered is answered no more. -/
theorem Step.answered (step : d.Step e) {answer : Answer}
    (answered : d.callers[id]? = some ⟨.waitForSync timeout, some answer⟩) :
    e.callers[id]? = some ⟨.waitForSync timeout, some answer⟩ := by
  cases step with
  | @served number timeout' rest turn there =>
    have other : number ≠ id := by
      rintro rfl
      cases there.symm.trans answered
    exact (callers_answer answered _).trans (by rw [if_neg other])
  | deeds deeds =>
    exact deeds.keeps (P := fun d => d.callers[id]? = some ⟨.waitForSync timeout, some answer⟩)
      (fun _ _ deed there => deed.syncWait there) answered

/-- A call that has just been made waits until its time is up. -/
theorem Heeds.awaits (heeds : d.Heeds) (timeout : Option τ) :
    (d.wait timeout).Awaits d.callers.length timeout (timeout.map (d.now + ·)) := by
  refine ⟨⟨none, by simp [Desk.wait]⟩, fun alarm mem mine => ?_, fun mem => ?_, ?_⟩
  · rcases Multiset.mem_add.1 mem with old | new
    · exact absurd mine (Nat.ne_of_lt (heeds.alarms alarm old))
    · rw [Multiset.mem_coe, Option.mem_toList] at new
      obtain ⟨span, rfl, rfl⟩ := Option.map_eq_some_iff.1 new
      rfl
  · rcases Multiset.mem_add.1 mem with old | new
    · exact absurd (heeds.turns _ old) (Nat.lt_irrefl _)
    · rw [Multiset.mem_coe] at new
      split at new
      · exact .inr (.inl ‹_›)
      · cases new
  · rintro - moment due
    obtain ⟨span, rfl, rfl⟩ := Option.map_eq_some_iff.1 due
    exact .inl (Multiset.mem_add.2 (.inr (by simp)))

end Desk

namespace World

variable {τ σ κ : Type} [Clock τ] [DecidableEq κ]

/-- What comes of a call to wait for the first snapshot, from the world in which it is made. -/
structure WaitsRight (source : Source τ σ κ) (v : World τ σ κ) (timeout : Option τ) : Prop where
  /-- With a snapshot it is answered at once, and only then. -/
  atOnce : (call source (.waitForSync timeout) v).state.answerOf v.state.callers.length =
    if v.state.isSynced then some (.truth true) else none
  /-- Whenever it is answered, the answer is whether there is a snapshot then.  If there is none,
  its time is up or the keeper is stopped. -/
  answer : ∀ w w' : World τ σ κ, Run source (call source (.waitForSync timeout) v) w →
    Step source w w' → w.state.answerOf v.state.callers.length = none →
    ∀ answer, w'.state.answerOf v.state.callers.length = some answer →
      answer = .truth w'.state.isSynced ∧
      (w'.state.isSynced = false → w'.state.lifecycle = .stopped ∨
        ∃ span, timeout = some span ∧ ¬ w'.now < v.now + span)
  /-- As long as it has no answer where nothing can run without time passing, there is no snapshot,
  the keeper is not stopped, and its time is not up. -/
  quiet : ∀ w : World τ σ κ, Run source (call source (.waitForSync timeout) v) w → w.Quiet →
    w.state.answerOf v.state.callers.length = none →
    w.state.isSynced = false ∧ w.state.lifecycle ≠ .stopped ∧
      ∀ span, timeout = some span → w.now < v.now + span

variable {source : Source τ σ κ} {strict : Bool} {v w : World τ σ κ}

/-- A call that is made when there is no snapshot waits from then on. -/
theorem awaits_of_run [IsStrictOrder τ (· < ·)] (reached : Reachable source strict v)
    {timeout : Option τ} (unsynced : v.state.isSynced = false)
    (onward : Run source (call source (.waitForSync timeout) v) w) :
    (desk w).Awaits v.state.callers.length timeout (timeout.map (v.now + ·)) := by
  have signal : v.state.syncSignal = false := reached.tidy.lives.synced.trans unsynced
  have made : desk (call source (.waitForSync timeout) v) = (desk v).wait timeout :=
    desk_waitForSync rfl signal
  refine Reachable.keeps (fun _ _ step awaits => Desk.Awaits.step awaits step)
    (reached.run (run_call (.waitForSync timeout) v)) onward ?_
  rw [made]
  exact reached.tidy.heeds.awaits timeout

/-- What a call to wait for the first snapshot is answered at once. -/
theorem callers_call (reached : Reachable source strict v) (timeout : Option τ) :
    (call source (.waitForSync timeout) v).state.callers =
      v.state.callers ++ [⟨.waitForSync timeout,
        if v.state.isSynced then some (.truth true) else none⟩] := by
  have signal : v.state.syncSignal = v.state.isSynced := reached.tidy.lives.synced
  split
  · rename_i synced
    exact congrArg Desk.callers (desk_waitForSync_of_synced rfl (signal.trans synced))
  · rename_i unsynced
    exact congrArg Desk.callers
      (desk_waitForSync rfl (signal.trans (Bool.eq_false_iff.2 unsynced)))

/-- A call that is still waiting was made when there was no snapshot. -/
theorem awaits_of_unanswered [IsStrictOrder τ (· < ·)] (reached : Reachable source strict v)
    {timeout : Option τ} (onward : Run source (call source (.waitForSync timeout) v) w)
    (unanswered : w.state.answerOf v.state.callers.length = none) :
    (desk w).Awaits v.state.callers.length timeout (timeout.map (v.now + ·)) ∧
      w.state.callers[v.state.callers.length]? = some ⟨.waitForSync timeout, none⟩ := by
  cases synced : v.state.isSynced with
  | true =>
    have answered : (desk w).callers[v.state.callers.length]? =
        some ⟨.waitForSync timeout, some (.truth true)⟩ := by
      refine Reachable.keeps (P := fun d : Desk τ => d.callers[v.state.callers.length]? =
        some ⟨.waitForSync timeout, some (.truth true)⟩)
        (fun _ _ step answered => Desk.Step.answered step answered)
        (reached.run (run_call (.waitForSync timeout) v)) onward ?_
      show (call source (.waitForSync timeout) v).state.callers[_]? = _
      simp [callers_call reached, synced]
    have some : w.state.answerOf v.state.callers.length = some (.truth true) :=
      congrArg (Option.bind · Caller.answer) answered
    cases unanswered.symm.trans some
  | false =>
    have awaits := awaits_of_run reached synced onward
    refine ⟨awaits, ?_⟩
    obtain ⟨answer, there⟩ := awaits.call
    have none : answer = none :=
      (congrArg (Option.bind · Caller.answer) there).symm.trans unanswered
    exact none ▸ there

omit [DecidableEq κ] in
/-- Where nothing can run without time passing, nobody has a turn in line. -/
theorem turns_of_quiet (quiet : w.Quiet) : (desk w).turns = 0 := by
  simp [desk, quiet.1]

/-- Where nothing can run without time passing, nobody waits for a snapshot that is there, or for
a keeper that is stopped. -/
theorem answered_of_quiet (reached : Reachable source strict w) (quiet : w.Quiet)
    (signalled : w.state.isSynced = true ∨ w.state.lifecycle = .stopped) (id : Nat)
    (timeout : Option τ) : w.state.callers[id]? ≠ some ⟨.waitForSync timeout, none⟩ := by
  intro there
  obtain ⟨lives, heeds⟩ := reached.tidy
  have mem := heeds.woken (signalled.imp lives.synced.trans lives.stopped.2) id timeout there
  rw [turns_of_quiet quiet] at mem
  exact absurd mem (Multiset.notMem_zero id)

/-- A call to wait for the first snapshot is answered by whether there is one when it is answered:
at once if there is one already, and else when there is one, when its time is up, or when the keeper
is stopped.  Where nothing can run without time passing, none is left waiting that could be
answered. -/
theorem waitForSync_right [IsStrictOrder τ (· < ·)] (reached : Reachable source strict v) :
    (∀ timeout, WaitsRight source v timeout) ∧
    (v.Quiet → v.state.isSynced = true ∨ v.state.lifecycle = .stopped →
      ∀ (id : Nat) (timeout : Option τ),
        v.state.callers[id]? ≠ some ⟨.waitForSync timeout, none⟩) := by
  refine ⟨fun timeout => ⟨?_, ?_, ?_⟩, fun quiet => answered_of_quiet reached quiet⟩
  · simp [Keeper.answerOf, callers_call reached]
  · intro w w' onward step unanswered answer answered
    obtain ⟨awaits, waits⟩ := awaits_of_unanswered reached onward unanswered
    have reached' := (reached.run (run_call (.waitForSync timeout) v)).run onward
    have stepped := desk_of_step reached'.manned step
    have there : (desk w').callers[v.state.callers.length]? =
        some ⟨.waitForSync timeout, some answer⟩ := by
      obtain ⟨answer', there⟩ := (awaits.step stepped).call
      have same : answer' = some answer :=
        (congrArg (Option.bind · Caller.answer) there).symm.trans answered
      exact same ▸ there
    obtain ⟨turn, is, callers, turns, alarms, same⟩ := stepped.of_answered waits there
    have lives := (reached'.run ((Run.refl w).step step)).tidy.lives
    have signal : (desk w).syncSignal = w'.state.isSynced :=
      (congrArg Desk.syncSignal same).symm.trans lives.synced
    rw [signal] at is
    refine ⟨is, fun unsynced => ?_⟩
    rcases awaits.reason turn with synced | stopped | ⟨moment, due, up⟩
    · cases synced.symm.trans (signal.trans unsynced)
    · exact .inl (lives.stopped.1 ((congrArg Desk.stopSignal same).trans stopped))
    · obtain ⟨span, rfl, rfl⟩ := Option.map_eq_some_iff.1 due
      have now : w'.now = w.now := congrArg Desk.now same
      exact .inr ⟨span, rfl, now ▸ up⟩
  · intro w onward quiet unanswered
    obtain ⟨awaits, waits⟩ := awaits_of_unanswered reached onward unanswered
    have reached' := (reached.run (run_call (.waitForSync timeout) v)).run onward
    have still := fun signalled => answered_of_quiet reached' quiet signalled _ timeout waits
    refine ⟨?_, fun stopped => still (.inr stopped), ?_⟩
    · exact Bool.eq_false_iff.2 fun synced => still (.inl synced)
    · rintro span rfl
      have alarm := (awaits.armed waits (v.now + span) rfl).resolve_right fun mem => by
        rw [turns_of_quiet quiet] at mem
        exact absurd mem (Multiset.notMem_zero _)
      obtain ⟨⟨due, target⟩, set, is⟩ := List.mem_filterMap.1 (Multiset.mem_coe.1 alarm)
      obtain ⟨id, -, same⟩ := Option.map_eq_some_iff.1 is
      cases same
      exact quiet.2 _ set

/-- Two calls wait while the first fetch takes two units and fails: one for a unit at most, and one
until the loop refreshes again after five units. -/
theorem waitForSync_right_unsteady :
    let source : Source Int Outcome Unit := .answering Source.unsteady
    let v := call source (.start 5) (init true)
    let w := advance source 3 20 <| call source (.waitForSync none) <|
      call source (.waitForSync (some 1)) v
    let synced := advance source 3 20 w
    Reachable source true v ∧ v.state.isSynced = false ∧
      WaitsRight source v (some 1) ∧ WaitsRight source v none ∧
      (w.state.answerOf 1 matches some (.truth false)) ∧ (w.state.answerOf 2).isNone ∧
      synced.Quiet ∧ synced.state.isSynced = true ∧
      (synced.state.answerOf 2 matches some (.truth true)) ∧
      ∀ (id : Nat) (timeout : Option Int),
        synced.state.callers[id]? ≠ some ⟨.waitForSync timeout, none⟩ := by
  intro source v w synced
  have reached : Reachable source true v := run_call (.start 5) _
  have later : Reachable source true synced :=
    ((reached.run (run_call (.waitForSync (some 1)) v)).run (run_call (.waitForSync none) _)).run
      ((run_advance 3 20 _).trans (run_advance 3 20 _))
  have line : synced.ready.isEmpty = true := by decide
  have alarms : (synced.alarms.all fun alarm => synced.now < alarm.due) = true := by decide
  have quiet : synced.Quiet :=
    ⟨List.isEmpty_iff.1 line, fun alarm set => by simpa using List.all_eq_true.1 alarms alarm set⟩
  have published : synced.state.isSynced = true := by decide
  obtain ⟨right, -⟩ := waitForSync_right reached
  exact ⟨reached, rfl, right (some 1), right none, by decide, by decide, quiet, published,
    by decide, (waitForSync_right later).2 quiet (.inl published)⟩

end World

end ApiCatalog
