/-
# ApiCatalog.Proofs.Tidy -- signals, answers and turns agree

Deeds keep a desk in order:

* `Desk.Lives`: the signals say what is the case, the life of the keeper is that
  of its loop, and a call to stop has no answer before the loop has ended;
* `Desk.Heeds`: once something is signalled, every call that waits for the first
  snapshot has a turn in line, and turns and alarms belong to calls that were
  made.

So the desk of every reachable world is in order (`Reachable.tidy`).
-/
import ApiCatalog.Proofs.Deeds

namespace ApiCatalog

set_option autoImplicit false

namespace Desk

variable {τ : Type}

/-! ## The life of the keeper -/

/-- The signals and the answers to stop agree with the life of the keeper and of its loop. -/
structure Lives (d : Desk τ) : Prop where
  synced : d.syncSignal = d.synced
  stopped : d.stopSignal = true ↔ d.lifecycle = .stopped
  idle : d.lifecycle = .idle → d.loop = none
  finished : ∀ l, d.loop = some l → (l.phase.isEnded = true ↔ d.lifecycle = .stopped)
  answered : ∀ (id : Nat) (answer : Answer), d.callers[id]? = some ⟨.stop, some answer⟩ →
    d.stopAnswer? = some answer

theorem stopAnswer?_of_running {d : Desk τ} {l : Loop τ} (there : d.loop = some l)
    (running : l.phase.isEnded = false) : d.stopAnswer? = none := by
  obtain ⟨interval, phase⟩ := l
  cases phase with
  | ended cancelled => cases running
  | _ => simp [stopAnswer?, there]

/-- Where nobody can have been answered, no call to stop is. -/
theorem Lives.unanswered {d : Desk τ} (lives : d.Lives) (none : d.stopAnswer? = none) {id : Nat}
    {answer : Answer} : d.callers[id]? ≠ some ⟨.stop, some answer⟩ := by
  intro there
  cases none.symm.trans (lives.answered id answer there)

/-- A life is one of the signals, the loop and the calls to stop. -/
theorem Lives.callers {d : Desk τ} (lives : d.Lives) {callers : List (Caller τ)}
    (old : ∀ (id : Nat) (answer : Answer), callers[id]? = some ⟨.stop, some answer⟩ →
      d.callers[id]? = some ⟨.stop, some answer⟩ ∨ d.stopAnswer? = some answer)
    (now : τ) (turns : Multiset Nat) (alarms : Multiset (τ × Nat)) :
    ({ d with now, callers, turns, alarms } : Desk τ).Lives := by
  refine ⟨lives.synced, lives.stopped, lives.idle, lives.finished, fun id answer there => ?_⟩
  rcases old id answer there with before | after
  · exact lives.answered id answer before
  · exact after

/-- While the loop runs, so does the keeper. -/
theorem Lives.lifecycle {d : Desk τ} (lives : d.Lives) {l : Loop τ} (there : d.loop = some l)
    (running : l.phase.isEnded = false) : d.lifecycle = .running := by
  cases life : d.lifecycle with
  | running => rfl
  | idle => cases (lives.idle life).symm.trans there
  | stopped => cases running.symm.trans ((lives.finished l there).2 life)

/-- While the loop runs, it may go on in any way, and nobody is answered yet. -/
theorem Lives.goes {d : Desk τ} (lives : d.Lives) {l m : Loop τ} (there : d.loop = some l)
    (running : l.phase.isEnded = false) (goes : m.phase.isEnded = false) (loopAttempts : Nat) :
    ({ d with loop := some m, loopAttempts } : Desk τ).Lives := by
  have life := lives.lifecycle there running
  refine ⟨lives.synced, lives.stopped, fun idle => ?_, ?_, fun id answer there' => ?_⟩
  · cases life.symm.trans idle
  · rintro _ ⟨⟩
    simp [goes, life]
  · exact absurd there' (lives.unanswered (stopAnswer?_of_running there running))

/-- The keeper is stopped, and whoever has been answered was answered the same. -/
theorem Lives.stop {d : Desk τ} (lives : d.Lives) {loop : Option (Loop τ)}
    (done : ∀ l, loop = some l → l.phase.isEnded = true)
    (answered : d.stopAnswer? = none ∨ d.loop = none ∧ loop = none) (turns : Multiset Nat) :
    ({ d with lifecycle := .stopped, stopSignal := true, loop, turns } : Desk τ).Lives := by
  refine ⟨lives.synced, by simp, (nomatch ·), fun l there => by simp [done l there], ?_⟩
  intro id answer there
  have before := lives.answered id answer there
  rcases answered with none | ⟨none, rfl⟩
  · cases none.symm.trans before
  · rw [stopAnswer?, none] at before
    simp only [stopAnswer?, if_true]
    split at before <;> simp_all

theorem Lives.deed [Clock τ] {d e : Desk τ} (lives : d.Lives) (deed : Deed d e) : e.Lives := by
  have call (c : Caller τ) (turns : Multiset Nat) (alarms : Multiset (τ × Nat))
      (other : ∀ answer, c ≠ ⟨.stop, some answer⟩) :
      ({ d with callers := d.callers ++ [c], turns, alarms } : Desk τ).Lives := by
    refine lives.callers (fun id answer there => ?_) d.now turns alarms
    rcases old_or_new there with old | ⟨-, new⟩
    · exact .inl old
    · exact absurd new.symm (other answer)
  cases deed with
  | call other => exact call _ d.turns d.alarms (fun _ => by simp)
  | synced timeout signalled => exact call _ d.turns d.alarms (fun _ => by simp)
  | wait timeout unsignalled => exact call _ _ _ (fun _ => by simp)
  | @reply number c there other answer =>
    refine lives.callers (fun id answer' there' => ?_) d.now d.turns d.alarms
    rcases kept_or_answered there' with ⟨-, kept⟩ | ⟨rfl, before, place, is⟩
    · exact .inl kept
    · cases there.symm.trans place
      obtain ⟨stop, -⟩ : Call.stop = c.call ∧ answer' = answer := by simpa using is
      rw [← stop] at other
      cases other.2
  | @stop number answer there decided =>
    refine lives.callers (fun id answer' there' => ?_) d.now d.turns d.alarms
    rcases kept_or_answered there' with ⟨-, kept⟩ | ⟨-, before, -, is⟩
    · exact .inl kept
    · obtain ⟨-, rfl⟩ : Call.stop = before.call ∧ answer' = answer := by simpa using is
      exact .inr decided
  | publish => exact ⟨rfl, lives.stopped, lives.idle, lives.finished, lives.answered⟩
  | askStop => exact ⟨lives.synced, lives.stopped, lives.idle, lives.finished, lives.answered⟩
  | retire none =>
    have done : ∀ l, d.loop = some l → l.phase.isEnded = true := fun l there => by
      cases none.symm.trans there
    exact lives.stop done (.inr ⟨none, none⟩) _
  | found idle interval =>
    have loopless := lives.idle idle
    have unstopped : d.stopAnswer? = none := by simp [stopAnswer?, loopless, idle]
    refine ⟨lives.synced, ?_, by simp, ?_, fun id answer there => ?_⟩
    · simp [lives.stopped, idle]
    · rintro l ⟨⟩
      simp [LoopPhase.isEnded]
    · exact absurd there (lives.unanswered unstopped)
  | tick there running unasked => exact lives.goes there running rfl _
  | rest there running goes => exact lives.goes there running goes _
  | endLoop there running cancelled =>
    refine lives.stop ?_ (.inl (stopAnswer?_of_running there running)) _
    rintro l ⟨⟩
    rfl
  | drop turn other => exact lives.callers (fun _ _ => .inl) _ _ _
  | ring set => exact lives.callers (fun _ _ => .inl) _ _ _
  | pass later => exact lives.callers (fun _ _ => .inl) _ _ _

theorem Lives.step [Clock τ] {d e : Desk τ} (lives : d.Lives) (step : d.Step e) : e.Lives := by
  cases step with
  | @served id timeout rest turn there =>
    refine lives.callers (fun number answer there' => ?_) _ _ _
    rcases kept_or_answered there' with ⟨-, kept⟩ | ⟨rfl, before, place, is⟩
    · exact .inl kept
    · cases there.symm.trans place
      cases is
  | deeds deeds => exact deeds.keeps (fun _ _ deed lives => Lives.deed lives deed) lives

/-! ## The calls that wait -/

/-- Once something is signalled, the calls that wait for the first snapshot have their turns in
line; turns and alarms are those of calls that were made. -/
structure Heeds (d : Desk τ) : Prop where
  woken : d.syncSignal = true ∨ d.stopSignal = true → ∀ (id : Nat) (timeout : Option τ),
    d.callers[id]? = some ⟨.waitForSync timeout, none⟩ → id ∈ d.turns
  turns : ∀ id ∈ d.turns, id < d.callers.length
  alarms : ∀ alarm ∈ d.alarms, alarm.2 < d.callers.length

/-- Calls that are added or answered are heeded like the others. -/
theorem Heeds.callers {d : Desk τ} (heeds : d.Heeds) {callers : List (Caller τ)}
    (more : d.callers.length ≤ callers.length)
    (old : ∀ (id : Nat) (timeout : Option τ), callers[id]? = some ⟨.waitForSync timeout, none⟩ →
      d.callers[id]? = some ⟨.waitForSync timeout, none⟩) :
    ({ d with callers } : Desk τ).Heeds where
  woken signalled id timeout there := heeds.woken signalled id timeout (old id timeout there)
  turns id mem := Nat.lt_of_lt_of_le (heeds.turns id mem) more
  alarms alarm mem := Nat.lt_of_lt_of_le (heeds.alarms alarm mem) more

theorem Heeds.answer {d : Desk τ} (heeds : d.Heeds) (id : Nat) (a : Answer) :
    (d.answer id a).Heeds := by
  refine heeds.callers (by simp) fun number timeout there => ?_
  rcases kept_or_answered there with ⟨-, kept⟩ | ⟨-, before, -, is⟩
  · exact kept
  · simp at is

theorem lt_of_mem_pending {d : Desk τ} {sort : Call τ → Bool} {id : Nat}
    (mem : id ∈ d.pending sort) : id < d.callers.length := by
  obtain ⟨c, there, -⟩ := mem_pending.1 mem
  exact (List.getElem?_eq_some_iff.1 there).1

theorem Heeds.wakeAll {d : Desk τ} (heeds : d.Heeds) (sort : Call τ → Bool) :
    (d.wakeAll sort).Heeds where
  woken signalled id timeout there :=
    mem_turns_wakeAll.2 (.inl (heeds.woken signalled id timeout there))
  turns id mem := (mem_turns_wakeAll.1 mem).elim (heeds.turns id) lt_of_mem_pending
  alarms := heeds.alarms

/-- When something is signalled, all calls that wait for the first snapshot are woken. -/
theorem Heeds.signal {d : Desk τ} (heeds : d.Heeds) (lifecycle : Lifecycle)
    (syncSignal stopSignal synced : Bool) (loop : Option (Loop τ)) :
    (Desk.wakeAll Call.isSyncWait
      { d with lifecycle, syncSignal, stopSignal, synced, loop }).Heeds where
  woken _ _ _ there := mem_turns_wakeAll.2 (.inr (mem_pending.2 ⟨_, there, rfl⟩))
  turns id mem := (mem_turns_wakeAll.1 mem).elim (heeds.turns id) lt_of_mem_pending
  alarms := heeds.alarms

theorem Heeds.wait [Clock τ] {d : Desk τ} (heeds : d.Heeds) (unsignalled : d.syncSignal = false)
    (timeout : Option τ) : (d.wait timeout).Heeds := by
  have more : d.callers.length < (d.wait timeout).callers.length := by simp [Desk.wait]
  refine ⟨fun signalled id timeout' there => ?_, fun id mem => ?_, fun alarm mem => ?_⟩
  · have stopped : d.stopSignal = true := signalled.resolve_left (by simp [Desk.wait, unsignalled])
    simp only [Desk.wait, stopped, if_true, Multiset.mem_add, Multiset.mem_coe,
      List.mem_singleton]
    rcases old_or_new there with old | ⟨new, -⟩
    · exact .inl (heeds.woken (.inr stopped) id timeout' old)
    · exact .inr new
  · rcases Multiset.mem_add.1 mem with old | new
    · exact Nat.lt_trans (heeds.turns id old) more
    · have last : id = d.callers.length := by
        rw [Multiset.mem_coe] at new
        split at new
        · exact List.mem_singleton.1 new
        · cases new
      omega
  · rcases Multiset.mem_add.1 mem with old | new
    · exact Nat.lt_trans (heeds.alarms alarm old) more
    · rw [Multiset.mem_coe, Option.mem_toList] at new
      obtain ⟨span, -, rfl⟩ := Option.map_eq_some_iff.1 new
      exact more

theorem Heeds.deed [Clock τ] {d e : Desk τ} (heeds : d.Heeds) (deed : Deed d e) : e.Heeds := by
  cases deed with
  | @call c other =>
    refine heeds.callers (by simp) fun id timeout there => ?_
    rcases old_or_new there with old | ⟨-, new⟩
    · exact old
    · cases new
      cases other
  | synced timeout signalled =>
    refine heeds.callers (by simp) fun id timeout there => ?_
    rcases old_or_new there with old | ⟨-, new⟩
    · exact old
    · cases new
  | wait timeout unsignalled => exact heeds.wait unsignalled timeout
  | reply there other answer => exact heeds.answer _ _
  | stop there decided => exact heeds.answer _ _
  | publish => exact heeds.signal d.lifecycle true d.stopSignal true d.loop
  | askStop => exact ⟨heeds.woken, heeds.turns, heeds.alarms⟩
  | retire none => exact heeds.signal .stopped d.syncSignal true d.synced d.loop
  | found idle interval => exact ⟨heeds.woken, heeds.turns, heeds.alarms⟩
  | tick there running unasked => exact ⟨heeds.woken, heeds.turns, heeds.alarms⟩
  | rest there running goes => exact ⟨heeds.woken, heeds.turns, heeds.alarms⟩
  | endLoop there running cancelled =>
    exact (heeds.signal .stopped d.syncSignal true d.synced _).wakeAll Call.isStop
  | @drop id rest turn other =>
    refine ⟨fun signalled number timeout there => ?_, fun number mem => ?_, heeds.alarms⟩
    · have mem := heeds.woken signalled number timeout there
      rw [turn] at mem
      rcases Multiset.mem_cons.1 mem with rfl | left
      · exact absurd there (other timeout)
      · exact left
    · exact heeds.turns number (turn ▸ Multiset.mem_cons_of_mem mem)
  | @ring due id others set =>
    have known : ∀ alarm ∈ (due, id) ::ₘ others, alarm.2 < d.callers.length := set ▸ heeds.alarms
    refine ⟨fun signalled number timeout there => ?_, fun number mem => ?_, fun alarm mem => ?_⟩
    · exact Multiset.mem_add.2 (.inl (heeds.woken signalled number timeout there))
    · rcases Multiset.mem_add.1 mem with before | new
      · exact heeds.turns number before
      · cases List.mem_singleton.1 new
        exact known _ (Multiset.mem_cons_self _ _)
    · exact known alarm (Multiset.mem_cons_of_mem mem)
  | pass later => exact ⟨heeds.woken, heeds.turns, heeds.alarms⟩

theorem Heeds.step [Clock τ] {d e : Desk τ} (heeds : d.Heeds) (step : d.Step e) : e.Heeds := by
  cases step with
  | @served id timeout rest turn there =>
    refine ⟨fun signalled number timeout' there' => ?_, fun number mem => ?_, fun alarm mem => ?_⟩
    · rcases kept_or_answered there' with ⟨other, kept⟩ | ⟨-, before, -, is⟩
      · have mem := heeds.woken signalled number timeout' kept
        rw [turn] at mem
        exact (Multiset.mem_cons.1 mem).resolve_left other.symm
      · simp at is
    · have before := heeds.turns number (turn ▸ Multiset.mem_cons_of_mem mem)
      simpa [Desk.answer] using before
    · have before := heeds.alarms alarm (Multiset.mem_of_mem_filter mem)
      simpa [Desk.answer] using before
  | deeds deeds => exact deeds.keeps (fun _ _ deed heeds => Heeds.deed heeds deed) heeds

/-- Signals, answers and turns agree. -/
structure Tidy (d : Desk τ) : Prop where
  lives : d.Lives
  heeds : d.Heeds

theorem Tidy.step [Clock τ] {d e : Desk τ} (tidy : d.Tidy) (step : d.Step e) : e.Tidy :=
  ⟨tidy.lives.step step, tidy.heeds.step step⟩

end Desk

namespace World

variable {τ σ κ : Type} [Clock τ] [DecidableEq κ] {source : Source τ σ κ}

omit [DecidableEq κ] in
theorem tidy_init (strict : Bool) : (desk (init strict : World τ σ κ)).Tidy where
  lives := ⟨rfl, by simp [desk, init], fun _ => rfl, nofun, nofun⟩
  heeds := ⟨by simp [desk, init], by simp [desk, init], by simp [desk, init]⟩

/-- What the steps of desks keep, runs of reachable worlds keep. -/
theorem Reachable.keeps {P : Desk τ → Prop} (step : ∀ d e : Desk τ, d.Step e → P d → P e)
    {strict : Bool} {v w : World τ σ κ} (reached : Reachable source strict v)
    (onward : Run source v w) (first : P (desk v)) : P (desk w) := by
  have both : Reachable source strict w ∧ P (desk w) := by
    refine Run.keeps (P := fun u => Reachable source strict u ∧ P (desk u)) ?_ onward
      ⟨reached, first⟩
    rintro u u' next ⟨reached, holds⟩
    exact ⟨reached.run ((Run.refl u).step next), step _ _ (desk_of_step reached.manned next) holds⟩
  exact both.2

/-- In every reachable world signals, answers and turns agree. -/
theorem Reachable.tidy {strict : Bool} {w : World τ σ κ} (reached : Reachable source strict w) :
    (desk w).Tidy :=
  Reachable.keeps (fun _ _ step tidy => Desk.Tidy.step tidy step) (.refl (init strict)) reached
    (tidy_init strict)

end World

end ApiCatalog
