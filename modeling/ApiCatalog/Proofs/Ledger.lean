/-
# ApiCatalog.Proofs.Ledger -- refreshes made one after the other

What a keeper shows of its refreshes is a `Ledger`: the published snapshot and
the last error.  A refresh that is made by itself changes it by `Ledger.after`
and is answered by `Verdict.of`; `Ledger.replay` goes through a whole course of
refreshes, each with the time at which its fetch began and what that ended with.
None of them knows of callers, of the loop, of the lock or of the line.

`judge_fst`: the keeper judges the end of a fetch as the ledger does.
-/
import ApiCatalog.Keeper
import ApiCatalog.Proofs.Indexing
import Mathlib.Data.List.Induction

namespace ApiCatalog

set_option autoImplicit false

/-- What a keeper shows of its refreshes. -/
structure Ledger (τ : Type) where
  snapshot : Option (Snapshot τ) := none
  lastError : Option Failure := none

/-- What a refresh is answered with, given what its fetch ended with. -/
def Verdict.of (strict : Bool) : Outcome → Verdict
  | .error .cancelled => .raised .cancelled
  | .error why => .kept why
  | .ok listings =>
    match (Snapshot.index strict listings).result with
    | .ok _ => .published
    | .error why => .raised why

/-- A refresh publishes what its fetch has brought, if that can be indexed. -/
theorem Verdict.of_eq_published_iff {strict : Bool} {outcome : Outcome} :
    Verdict.of strict outcome = .published ↔ ∃ listings entries,
      outcome = .ok listings ∧ (Snapshot.index strict listings).result = .ok entries := by
  constructor
  · intro published
    unfold Verdict.of at published
    split at published
    · cases published
    · cases published
    · rename_i listings
      split at published
      · rename_i entries indexed
        exact ⟨listings, entries, rfl, indexed⟩
      · cases published
  · rintro ⟨listings, entries, rfl, indexed⟩
    simp only [Verdict.of, indexed]

/-- What a caller is told of what became of its refresh. -/
inductive Verdict.Tells : Verdict → Answer → Prop
  | published : Tells .published (.truth true)
  | kept (why : Failure) : Tells (.kept why) (.truth false)
  | raised (why : Failure) : Tells (.raised why) (.failed why)

theorem Verdict.tells_answerOf (verdict : Verdict) : verdict.Tells (World.answerOf verdict) := by
  cases verdict with
  | published => exact .published
  | kept why => exact .kept why
  | raised why => exact .raised why

namespace Ledger

variable {τ : Type}

/-- The ledger after one more refresh, given when its fetch began and what it ended with. -/
def after (strict : Bool) (l : Ledger τ) (began : τ) : Outcome → Ledger τ
  | .error .cancelled => l
  | .error why => { l with lastError := some why }
  | .ok listings =>
    match (Snapshot.index strict listings).result with
    | .ok entries => ⟨some ⟨entries, began⟩, none⟩
    | .error (.malformed cause) => { l with lastError := some (.malformed cause) }
    | .error _ => l

/-- The ledger after a course of refreshes. -/
def replay (strict : Bool) (course : List (τ × Outcome)) : Ledger τ :=
  course.foldl (fun l fetch => l.after strict fetch.1 fetch.2) {}

theorem replay_append_singleton (strict : Bool) (course : List (τ × Outcome)) (began : τ)
    (outcome : Outcome) :
    replay strict (course ++ [(began, outcome)]) =
      (replay strict course).after strict began outcome := by
  simp [replay]

/-- A refresh that publishes shows what its fetch has brought. -/
theorem snapshot_after_of_published {strict : Bool} {outcome : Outcome}
    (published : Verdict.of strict outcome = .published) (l : Ledger τ) (began : τ) :
    ∃ listings entries, outcome = .ok listings ∧
      (Snapshot.index strict listings).result = .ok entries ∧
      (l.after strict began outcome).snapshot = some ⟨entries, began⟩ := by
  obtain ⟨listings, entries, rfl, indexed⟩ := Verdict.of_eq_published_iff.1 published
  refine ⟨listings, entries, rfl, indexed, ?_⟩
  simp only [after, indexed]

/-- A refresh that publishes nothing leaves the snapshot. -/
theorem snapshot_after_of_kept {strict : Bool} {outcome : Outcome}
    (kept : Verdict.of strict outcome ≠ .published) (l : Ledger τ) (began : τ) :
    (l.after strict began outcome).snapshot = l.snapshot := by
  unfold after
  split
  · rfl
  · rfl
  · rename_i listings
    split
    · rename_i entries indexed
      simp [Verdict.of, indexed] at kept
    · rfl
    · rfl

/-- A refresh leaves the snapshot, or replaces it by one of its own. -/
theorem snapshot_after (strict : Bool) (l : Ledger τ) (began : τ) (outcome : Outcome) :
    (l.after strict began outcome).snapshot = l.snapshot ∨
      ∃ entries, (l.after strict began outcome).snapshot = some ⟨entries, began⟩ := by
  by_cases published : Verdict.of strict outcome = .published
  · obtain ⟨listings, entries, -, -, shown⟩ := snapshot_after_of_published published l began
    exact .inr ⟨entries, shown⟩
  · exact .inl (snapshot_after_of_kept published l began)

/-- Further refreshes leave the snapshot, or one of them replaces it by its own. -/
theorem snapshot_replay_append (strict : Bool) (course more : List (τ × Outcome)) :
    (replay strict (course ++ more)).snapshot = (replay strict course).snapshot ∨
      ∃ s, (replay strict (course ++ more)).snapshot = some s ∧
        s.fetchedAt ∈ more.map Prod.fst := by
  induction more using List.reverseRecOn with
  | nil =>
    rw [List.append_nil]
    exact .inl rfl
  | append_singleton more fetch ih =>
    obtain ⟨began, outcome⟩ := fetch
    rw [← List.append_assoc, replay_append_singleton]
    rcases snapshot_after strict (replay strict (course ++ more)) began outcome with
      same | ⟨entries, new⟩
    · rw [same]
      refine ih.imp_right ?_
      rintro ⟨s, shown, mem⟩
      exact ⟨s, shown, by simp only [List.map_append, List.mem_append, mem, true_or]⟩
    · exact .inr ⟨_, new, by simp⟩

theorem snapshot_replay_of_kept {strict : Bool} {course more : List (τ × Outcome)}
    (kept : ∀ fetch ∈ more, Verdict.of strict fetch.2 ≠ .published) :
    (replay strict (course ++ more)).snapshot = (replay strict course).snapshot := by
  induction more using List.reverseRecOn with
  | nil => rw [List.append_nil]
  | append_singleton more fetch ih =>
    rw [← List.append_assoc, replay_append_singleton,
      snapshot_after_of_kept (kept fetch (by simp)),
      ih fun fetch mem => kept fetch (List.mem_append_left _ mem)]

end Ledger

/-! ## What a keeper keeps of its attempts -/

namespace Attempt

variable {τ σ : Type}

/-- Whether an attempt has come to its end. -/
def isEnded (a : Attempt τ σ) : Bool :=
  match a.stage with
  | .ended _ _ _ _ => true
  | _ => false

/-- Whether the fetch of an attempt is in flight. -/
def isFetching (a : Attempt τ σ) : Bool :=
  match a.stage with
  | .fetching _ _ => true
  | _ => false

/-- When the fetch of an ended attempt began, and what it ended with. -/
def course? (a : Attempt τ σ) : Option (τ × Outcome) :=
  match a.stage with
  | .ended began _ outcome _ => some (began, outcome)
  | _ => none

/-- What became of an ended attempt. -/
def verdict? (a : Attempt τ σ) : Option Verdict :=
  match a.stage with
  | .ended _ _ _ verdict => some verdict
  | _ => none

variable {a : Attempt τ σ}

theorem verdict?_of_queued (queued : a.stage = .queued) : a.verdict? = none := by
  simp [verdict?, queued]

theorem course?_of_queued (queued : a.stage = .queued) : a.course? = none := by
  simp [course?, queued]

theorem isEnded_of_queued (queued : a.stage = .queued) : a.isEnded = false := by
  simp [isEnded, queued]

theorem isSome_course? (a : Attempt τ σ) : a.course?.isSome = a.isEnded := by
  obtain ⟨owner, arrived, stage⟩ := a
  cases stage <;> rfl

theorem isSome_verdict? (a : Attempt τ σ) : a.verdict?.isSome = a.isEnded := by
  obtain ⟨owner, arrived, stage⟩ := a
  cases stage <;> rfl

theorem stage_of_isFetching (fetches : a.isFetching = true) :
    ∃ began work, a.stage = .fetching began work := by
  obtain ⟨owner, arrived, stage⟩ := a
  cases stage with
  | fetching began work => exact ⟨began, work, rfl⟩
  | _ => cases fetches

theorem verdict?_of_isFetching (fetches : a.isFetching = true) : a.verdict? = none := by
  obtain ⟨began, work, stage⟩ := stage_of_isFetching fetches
  simp [verdict?, stage]

theorem course?_of_isFetching (fetches : a.isFetching = true) : a.course? = none := by
  obtain ⟨began, work, stage⟩ := stage_of_isFetching fetches
  simp [course?, stage]

theorem isEnded_of_isFetching (fetches : a.isFetching = true) : a.isEnded = false := by
  obtain ⟨began, work, stage⟩ := stage_of_isFetching fetches
  simp [isEnded, stage]

theorem isStarted_of_isFetching (fetches : a.isFetching = true) : a.isStarted = true := by
  obtain ⟨began, work, stage⟩ := stage_of_isFetching fetches
  simp [isStarted, stage]

theorem isStarted_of_isEnded (ended : a.isEnded = true) : a.isStarted = true := by
  obtain ⟨owner, arrived, stage⟩ := a
  cases stage with
  | queued => cases ended
  | _ => rfl

end Attempt

namespace Keeper

variable {τ σ : Type}

/-- The number of attempts that have ended. -/
def completed (k : Keeper τ σ) : Nat := k.attempts.countP Attempt.isEnded

/-- The fetches of the ended attempts, in order of arrival. -/
def course (k : Keeper τ σ) : List (τ × Outcome) := k.attempts.filterMap Attempt.course?

theorem length_course (k : Keeper τ σ) : k.course.length = k.completed := by
  rw [course, completed, List.length_filterMap_eq_countP]
  exact List.countP_congr fun a _ => by rw [Attempt.isSome_course?]

/-- What is shown of the refreshes. -/
def ledger (k : Keeper τ σ) : Ledger τ := ⟨k.snapshot, k.lastError⟩

end Keeper

/-! ## The keeper judges as the ledger does -/

namespace World

variable {τ σ κ : Type} (began : τ) (outcome : Outcome) (w : World τ σ κ)

theorem judge_fst : (judge began outcome w).1 = Verdict.of w.state.strict outcome := by
  cases outcome with
  | error why =>
    cases why <;> simp [judge, Verdict.of, Failure.isCancelled]
  | ok listings =>
    simp only [judge, Verdict.of, note, Timeline.modify]
    cases (Snapshot.index w.state.strict listings).result <;> rfl

end World

end ApiCatalog
