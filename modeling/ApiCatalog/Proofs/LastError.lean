/-
# ApiCatalog.Proofs.LastError -- what the last error tells

A refresh that publishes clears the last error.  One whose fetch fails, or whose
listings a strict reader cannot read, leaves its failure.  Indexing can fail in two
other ways, by a missing field and by a wrong shape, and of these nothing is
recorded: the last error is then still what earlier refreshes have left
(`Verdict.Leaves`).  So it is that of the latest refresh that left one, which need
not be the latest (`lastError_of_latest`).
-/
import ApiCatalog.Proofs.Outcomes
import Mathlib.Data.List.Basic

namespace ApiCatalog

set_option autoImplicit false

/-- What a refresh leaves as the last error, where earlier ones have left another. -/
inductive Verdict.Leaves (before : Option Failure) : Verdict → Option Failure → Prop
  | published : Leaves before .published none
  | kept (why : Failure) : Leaves before (.kept why) (some why)
  | malformed (cause : Malformed) :
    Leaves before (.raised (.malformed cause)) (some (.malformed cause))
  /-- A failure of indexing that is not recorded. -/
  | crashed {why : Failure} (crash : why = .missingField ∨ why = .wrongShape) :
    Leaves before (.raised why) before

/-- What a refresh records as the last error, if it records anything: its failure, or that there was
none. -/
def Verdict.record? : Verdict → Option (Option Failure)
  | .published => some none
  | .kept why => some (some why)
  | .raised why => if why.isBreach then some (some why) else none

theorem Verdict.Leaves.eq {before left : Option Failure} {verdict : Verdict}
    (leaves : verdict.Leaves before left) : left = verdict.record?.getD before := by
  cases leaves with
  | crashed crash => rcases crash with rfl | rfl <;> rfl
  | _ => rfl

/-- What an attempt has recorded as the last error. -/
def Attempt.record? {τ σ : Type} (a : Attempt τ σ) : Option (Option Failure) :=
  a.verdict?.bind Verdict.record?

namespace Ledger

variable {τ : Type} {strict : Bool}

theorem leaves_after (l : Ledger τ) (began : τ) {outcome : Outcome}
    (uncancelled : outcome ≠ .error .cancelled) :
    (Verdict.of strict outcome).Leaves l.lastError (l.after strict began outcome).lastError := by
  cases outcome with
  | error why =>
    cases why with
    | cancelled => exact absurd rfl uncancelled
    | _ => exact .kept _
  | ok listings =>
    simp only [Verdict.of, after]
    cases indexed : (Snapshot.index strict listings).result with
    | ok entries => exact .published
    | error why =>
      rcases Snapshot.refusal_of_index indexed with ⟨cause, rfl⟩ | rfl | rfl
      · exact .malformed cause
      · exact .crashed (.inl rfl)
      · exact .crashed (.inr rfl)

theorem lastError_after (l : Ledger τ) (began : τ) (outcome : Outcome) :
    (l.after strict began outcome).lastError =
      (Verdict.of strict outcome).record?.getD l.lastError := by
  by_cases cancelled : outcome = .error .cancelled
  · subst cancelled
    rfl
  · exact (leaves_after l began cancelled).eq

/-- The last error is what was recorded last. -/
theorem lastError_replay (course : List (τ × Outcome)) :
    (replay strict course).lastError =
      ((course.filterMap fun fetch => (Verdict.of strict fetch.2).record?).getLast?).join := by
  induction course using List.reverseRecOn with
  | nil => rfl
  | append_singleton course fetch ih =>
    rw [replay_append_singleton, lastError_after, ih, List.filterMap_append]
    cases recorded : (Verdict.of strict fetch.2).record? with
    | none => simp [recorded]
    | some left => simp [recorded]

end Ledger

namespace World

variable {τ σ κ : Type} {source : Source τ σ κ} {strict : Bool} {w : World τ σ κ} {l : Line τ σ}

/-- What the fetches that have ended say to record is what the attempts have recorded. -/
theorem records_eq (sound : (core w).Sound source strict l) :
    (w.state.course.filterMap fun fetch => (Verdict.of strict fetch.2).record?) =
      w.state.attempts.filterMap Attempt.record? := by
  rw [Keeper.course, List.filterMap_filterMap]
  refine List.filterMap_congr fun a mem => ?_
  rw [Attempt.record?, sound.judged mem]
  cases a.course? <;> rfl

variable [Clock τ] [DecidableEq κ]

/-- The last error is what was recorded last.  Where no fetch is cancelled, this is that of the
latest refresh which has ended: nothing if it has published, and its failure if it has failed; but
where its indexing has crashed it is what the refreshes before have left. -/
theorem lastError_of_latest (reached : Reachable source strict w)
    (uncancelled : ∀ n, ¬ source.Yields n (.error .cancelled)) :
    w.state.lastError = ((w.state.attempts.filterMap Attempt.record?).getLast?).join ∧
    (w.state.completed = 0 → w.state.lastError = none) ∧
    ∀ n, w.state.completed = n + 1 → ∃ a verdict, w.state.attempts[n]? = some a ∧
      a.verdict? = some verdict ∧
      verdict.Leaves (Ledger.replay strict (w.state.course.take n)).lastError
        w.state.lastError := by
  obtain ⟨l, sound⟩ := reached.sound
  have shown : w.state.lastError = (Ledger.replay strict w.state.course).lastError :=
    congrArg Ledger.lastError (ledger_eq sound)
  have length := w.state.length_course
  refine ⟨?_, fun none => ?_, fun n latest => ?_⟩
  · rw [shown, Ledger.lastError_replay, records_eq sound]
  · rw [none, List.length_eq_zero_iff] at length
    rw [shown, length]
    rfl
  · -- the latest refresh is the last one in the course, and has its number
    have inside : n < w.state.course.length := by omega
    have there := List.getElem?_eq_getElem inside
    obtain ⟨a, place, course⟩ :=
      Option.bind_eq_some_iff.1 ((sound.kept.orderly.getElem?_course n).symm.trans there)
    have judged := sound.kept.judged (List.mem_of_getElem? place)
    rw [course, sound.strict] at judged
    refine ⟨a, _, place, judged, ?_⟩
    have yields := sound.faithful.yields place course
    generalize w.state.course[n] = fetch at course yields ⊢
    have all : w.state.course = w.state.course.take n ++ [fetch] :=
      (List.take_of_length_le (by omega)).symm.trans
        (sound.kept.orderly.take_course place course)
    have last : w.state.lastError = ((Ledger.replay strict (w.state.course.take n)).after strict
        fetch.1 fetch.2).lastError := by
      rw [shown, ← Ledger.replay_append_singleton]
      exact congrArg (fun course => (Ledger.replay strict course).lastError) all
    rw [last]
    exact Ledger.leaves_after _ _ fun cancelled => uncancelled n (cancelled ▸ yields)

end World

namespace Source

theorem uncancelled_answering {τ : Type} {replies : Nat → Reply τ (Option (List Listing))}
    (other : ∀ n, (replies n).answer ≠ .error .cancelled) (n : Nat) :
    ¬ (answering replies).Yields n (.error .cancelled) := by
  rw [yields_answering_iff]
  exact (other n).symm

/-- A group-version with nothing in place of its records. -/
def shapeless : Reply Int (Option (List Listing)) := ⟨none, .ok (some [⟨some "apps/v1", none⟩])⟩

/-- The first fetch fails; the others find a group-version with nothing in place of its records. -/
def failing : Nat → Reply Int (Option (List Listing))
  | 0 => ⟨none, .error (.raised .timeout "timed out")⟩
  | _ => shapeless

end Source

namespace World

/-- After a refresh that failed and one that crashed, the last error is that of the first. -/
theorem lastError_of_latest_failing :
    let source : Source Int Outcome Unit := .answering Source.failing
    let w := call source .refresh <| call source .refresh (init true)
    Reachable source true w ∧ w.state.completed = 2 ∧
      ∃ a verdict, w.state.attempts[1]? = some a ∧ a.verdict? = some verdict ∧
        verdict.Leaves (Ledger.replay true (w.state.course.take 1)).lastError
          w.state.lastError ∧
        (w.state.lastError matches some (.raised .timeout _)) := by
  intro source w
  have reached : Reachable source true w := (run_call .refresh _).trans (run_call .refresh _)
  have completed : w.state.completed = 2 := by decide
  have kept : (w.state.lastError matches some (.raised .timeout _)) = true := by decide
  have uncancelled : ∀ n, ¬ source.Yields n (.error .cancelled) :=
    Source.uncancelled_answering fun n => by cases n <;> exact nofun
  obtain ⟨a, verdict, there, judged, leaves⟩ :=
    (lastError_of_latest reached uncancelled).2.2 1 completed
  exact ⟨reached, completed, a, verdict, there, judged, leaves, kept⟩

/-- A refresh may fail without leaving its failure as the last error. -/
theorem lastError_of_crashed :
    ¬ ∀ (source : Source Int Outcome Unit) (w : World Int Outcome Unit) (n : Nat)
        (a : Attempt Int Outcome) (why : Failure), Reachable source true w →
        (∀ n, ¬ source.Yields n (.error .cancelled)) →
        (∀ a ∈ w.state.attempts, a.isEnded = true) → w.state.completed = n + 1 →
        w.state.attempts[n]? = some a → a.verdict? = some (.raised why) →
        w.state.lastError = some why := by
  intro always
  let source : Source Int Outcome Unit := .answering fun _ => Source.shapeless
  let w := call source .refresh (init true)
  have reached : Reachable source true w := run_call .refresh _
  have uncancelled : ∀ n, ¬ source.Yields n (.error .cancelled) :=
    Source.uncancelled_answering fun _ => nofun
  have idle : (w.state.attempts.all Attempt.isEnded) = true := by decide
  have completed : w.state.completed = 1 := by decide
  have silent : w.state.lastError.isNone = true := by decide
  have failed : (w.state.attempts[0]?).bind Attempt.verdict? = some (.raised .wrongShape) := by rfl
  obtain ⟨a, there, judged⟩ := Option.bind_eq_some_iff.1 failed
  rw [always source w 0 a .wrongShape reached uncancelled (List.all_eq_true.1 idle) completed there
    judged] at silent
  cases silent

end World

end ApiCatalog
