/-
# ApiCatalog.Proofs.Serial -- refreshes are made one at a time, in the order of arrival

Whatever the source does and however calls, the loop and time interleave:

* no two fetches are in flight at once, now or at any moment before;
* the n-th attempt to arrive makes the n-th fetch, and has ended before the next
  one starts;
* its owner is told what became of that fetch, a caller by its answer and the
  loop by a report if it failed;
* nobody who has arrived loses the place, and a published snapshot is replaced by
  none that was fetched earlier.
-/
import ApiCatalog.Proofs.Outcomes
import ApiCatalog.Proofs.Times

namespace ApiCatalog

set_option autoImplicit false

namespace Core

variable {τ σ κ : Type} {source : Source τ σ κ} {c : Core τ σ} {l : Line τ σ}

/-- The fetch in flight is that of the attempt which holds the lock. -/
theorem Kept.running (kept : c.Kept l) :
    c.traffic.running = c.attempts.countP Attempt.isFetching := by
  have orderly := kept.orderly
  have ended : l.ended.countP Attempt.isFetching = 0 :=
    List.countP_eq_zero.2 fun a mem fetches => by
      cases (orderly.ended a mem).symm.trans (Attempt.isEnded_of_isFetching fetches)
  have current : l.current.toList.countP Attempt.isFetching = l.current.toList.length :=
    List.countP_eq_length.2 fun a mem => orderly.current a (Option.mem_toList.1 mem)
  have waiting : l.waiting.countP Attempt.isFetching = 0 :=
    List.countP_eq_zero.2 fun a mem => by simp [Attempt.isFetching, orderly.waiting a mem]
  rw [kept.shown.running, orderly.attempts, Line.attempts, List.countP_append,
    List.countP_append, ended, current, waiting, Nat.zero_add, Nat.add_zero]

/-- Those who have started are the first ones. -/
theorem Orderly.isStarted_iff (orderly : c.Orderly l) {n : Nat} {a : Attempt τ σ}
    (there : c.attempts[n]? = some a) : a.isStarted = true ↔ n < c.fetches := by
  have fetches : c.fetches = (l.ended ++ l.current.toList).length := by
    rw [orderly.fetches_eq, List.length_append]
  rw [orderly.attempts, Line.attempts] at there
  rw [fetches]
  rcases Nat.lt_or_ge n (l.ended ++ l.current.toList).length with inside | outside
  · rw [List.getElem?_append_left inside] at there
    refine iff_of_true ?_ inside
    rcases List.mem_append.1 (List.mem_of_getElem? there) with ended | current
    · exact Attempt.isStarted_of_isEnded (orderly.ended a ended)
    · exact Attempt.isStarted_of_isFetching (orderly.current a (Option.mem_toList.1 current))
  · rw [List.getElem?_append_right outside] at there
    refine iff_of_false ?_ (Nat.not_lt.2 outside)
    simp [Attempt.isStarted, orderly.waiting a (List.mem_of_getElem? there)]

/-- Who is followed by one that has started has ended. -/
theorem Orderly.isEnded_of_next (orderly : c.Orderly l) {n : Nat} {a b : Attempt τ σ}
    (there : c.attempts[n]? = some a) (next : c.attempts[n + 1]? = some b)
    (started : b.isStarted = true) : a.isEnded = true := by
  have first := (orderly.isStarted_iff next).1 started
  rw [orderly.fetches_eq] at first
  have one : l.current.toList.length ≤ 1 := by cases l.current <;> simp
  have inside : n < l.ended.length := by omega
  rw [orderly.attempts_eq, List.getElem?_append_left inside] at there
  exact orderly.ended a (List.mem_of_getElem? there)

end Core

namespace World

variable {τ σ κ : Type}

/-- Refreshes are made one at a time, in the order of arrival. -/
structure Serial (source : Source τ σ κ) (strict : Bool) (w : World τ σ κ) : Prop where
  /-- At no moment so far were two fetches in flight. -/
  single : (Report.Traffic.fetches w.state.journal).peak ≤ 1
  inFlight : (Report.Traffic.fetches w.state.journal).running =
    w.state.attempts.countP Attempt.isFetching
  /-- As many attempts have started as fetches were started, the first to arrive. -/
  started : ∀ (n : Nat) (a : Attempt τ σ), w.state.attempts[n]? = some a →
    (a.isStarted = true ↔ n < w.state.fetches)
  /-- An attempt starts after the one before it has ended. -/
  inTurn : ∀ (n : Nat) (a b : Attempt τ σ), w.state.attempts[n]? = some a →
    w.state.attempts[n + 1]? = some b → b.isStarted = true → a.isEnded = true
  /-- An attempt does what the source does in the fetch of its number. -/
  own : ∀ (n : Nat) (a : Attempt τ σ), w.state.attempts[n]? = some a → a.Follows source n
  judged : ∀ a ∈ w.state.attempts,
    a.verdict? = a.course?.map fun fetch => Verdict.of strict fetch.2
  /-- The calls to refresh are answered what became of their attempts. -/
  asked : w.state.asked = w.state.attempts.filterMap Attempt.asked?
  answered : ∀ a ∈ w.state.attempts, ∀ id, a.owner = .caller id →
    Option.Rel Verdict.Tells a.verdict? (w.state.answerOf id)
  /-- The loop reports those of its attempts that failed. -/
  reported : w.state.reports = w.state.attempts.flatMap Attempt.report

variable {source : Source τ σ κ} {strict : Bool} {v w : World τ σ κ}

theorem serial_of_sound {l : Line τ σ} (sound : (core w).Sound source strict l) :
    Serial source strict w where
  single := sound.kept.shown.peak
  inFlight := sound.kept.running
  started _ _ there := sound.kept.orderly.isStarted_iff there
  inTurn _ _ _ there next started := sound.kept.orderly.isEnded_of_next there next started
  own := sound.faithful
  judged _ mem := sound.judged mem
  asked := asked_eq sound.kept
  answered _ mem _ mine := tells_answer sound.kept mem mine
  reported := sound.kept.reports

variable [Clock τ] [DecidableEq κ]

/-- The snapshot that is shown after a further run is no older. -/
theorem fetchedAt_of_run [IsTrans τ (· < ·)] (reached : Reachable source strict v)
    (onward : Run source v w) {earlier later : Snapshot τ}
    (before : v.state.snapshot = some earlier) (after : w.state.snapshot = some later) :
    NotAfter earlier.fetchedAt later.fetchedAt := by
  obtain ⟨l, sound⟩ := reached.sound
  obtain ⟨m, sound'⟩ := (reached.run onward).sound
  obtain ⟨more, split⟩ := (prefix_of_run reached onward).2
  have shown' : w.state.snapshot =
      (Ledger.replay strict (v.state.course ++ more)).snapshot := by
    rw [split]
    exact snapshot_eq sound'
  have first : (core (init strict : World τ σ κ)).Timed := by
    simp [Core.Timed, core, init]
  have timed : (core w).Timed :=
    first.acts (.init strict κ) (Core.acts_of_moves (moves_of_run (reached.run onward)))
  have course : ((v.state.course ++ more).map Prod.fst).Pairwise NotAfter := by
    rw [split]
    exact timed.course
  exact Ledger.fetchedAt_replay course ((snapshot_eq sound).symm.trans before)
    (shown'.symm.trans after)

/-- Refreshes are made one at a time and in the order of arrival, and with time no older snapshot
is shown. -/
theorem refreshes_serial (reached : Reachable source strict v) (onward : Run source v w) :
    Serial source strict w ∧
    v.state.attempts.map Attempt.arrival <+: w.state.attempts.map Attempt.arrival ∧
    (IsTrans τ (· < ·) → ∀ earlier later, v.state.snapshot = some earlier →
      w.state.snapshot = some later →
        earlier.fetchedAt = later.fetchedAt ∨ earlier.fetchedAt < later.fetchedAt) := by
  obtain ⟨l, sound⟩ := (reached.run onward).sound
  refine ⟨serial_of_sound sound, (prefix_of_run reached onward).1, ?_⟩
  intro forward earlier later before after
  exact fetchedAt_of_run reached onward before after

/-- Two calls to refresh and the loop overlap; five units later the loop has refreshed again. -/
theorem refreshes_serial_overlapping :
    let source : Source Int Outcome Unit := .answering Source.unsteady
    let v := advance source 3 20 <| call source (.start 5) <| call source .refresh <|
      call source .refresh <| init true
    let w := advance source 5 20 v
    Reachable source true v ∧ Run source v w ∧ Serial source true w ∧
      v.state.snapshot.map (·.fetchedAt) = some 2 ∧ w.state.snapshot.map (·.fetchedAt) = some 5 ∧
      ∀ earlier later, v.state.snapshot = some earlier → w.state.snapshot = some later →
        earlier.fetchedAt = later.fetchedAt ∨ earlier.fetchedAt < later.fetchedAt := by
  intro source v w
  have reached : Reachable source true v :=
    ((run_call .refresh _).trans (run_call .refresh _)).trans (run_call (.start 5) _)
      |>.trans (run_advance 3 20 _)
  have onward : Run source v w := run_advance 5 20 v
  obtain ⟨serial, -, forward⟩ := refreshes_serial reached onward
  refine ⟨reached, onward, serial, by decide, by decide, forward inferInstance⟩

end World

end ApiCatalog
