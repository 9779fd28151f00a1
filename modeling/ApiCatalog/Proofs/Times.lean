/-
# ApiCatalog.Proofs.Times -- an older fetch never replaces a newer one

Time moves forward only, and one fetch begins after the other has ended.  So the
times at which the attempts began and ended, taken in the order of arrival, do
not decrease, and none of them is yet to come (`Core.Timed`).

A snapshot bears the time at which its fetch began.  Of a course whose times do
not decrease, a longer part shows a snapshot that is no older than the one that a
shorter part shows (`Ledger.fetchedAt_replay`).
-/
import ApiCatalog.Proofs.Books
import Mathlib.Order.Defs.Unbundled

namespace ApiCatalog

set_option autoImplicit false

/-- The first moment is no later than the second. -/
def NotAfter {τ : Type} [LT τ] (s t : τ) : Prop := s = t ∨ s < t

theorem NotAfter.trans_lt {τ : Type} [LT τ] [IsTrans τ (· < ·)] {r s t : τ}
    (first : NotAfter r s) (second : s < t) : NotAfter r t := by
  rcases first with rfl | before
  · exact .inr second
  · exact .inr (IsTrans.trans r s t before second)

/-- When the fetch of an attempt began and ended, as far as it has. -/
def Attempt.times {τ σ : Type} (a : Attempt τ σ) : List τ :=
  match a.stage with
  | .queued => []
  | .fetching began _ => [began]
  | .ended began ended _ _ => [began, ended]

namespace Core

variable {τ σ κ : Type}

/-- The times of the attempts do not decrease, and none is yet to come. -/
def Timed [LT τ] (c : Core τ σ) : Prop :=
  (c.attempts.flatMap Attempt.times ++ [c.now]).Pairwise NotAfter

theorem Orderly.times {c : Core τ σ} {l : Line τ σ} (orderly : c.Orderly l) :
    c.attempts.flatMap Attempt.times =
      l.ended.flatMap Attempt.times ++ l.current.toList.flatMap Attempt.times := by
  have waiting : l.waiting.flatMap Attempt.times = [] :=
    List.flatMap_eq_nil_iff.2 fun a mem => by simp [Attempt.times, orderly.waiting a mem]
  rw [orderly.attempts, Line.attempts, List.flatMap_append, List.flatMap_append, waiting,
    List.append_nil]

theorem pairwise_again [LT τ] {times : List τ} {now : τ}
    (timed : (times ++ [now]).Pairwise NotAfter) : (times ++ [now, now]).Pairwise NotAfter := by
  rw [List.pairwise_append] at timed ⊢
  obtain ⟨before, -, past⟩ := timed
  refine ⟨before, by simp [NotAfter], fun t mem s last => ?_⟩
  have same : s = now := by simpa using last
  exact past t mem s (by simp [same])

theorem pairwise_later [LT τ] [IsTrans τ (· < ·)] {times : List τ} {now moment : τ}
    (timed : (times ++ [now]).Pairwise NotAfter) (later : now < moment) :
    (times ++ [moment]).Pairwise NotAfter := by
  rw [List.pairwise_append] at timed ⊢
  refine ⟨timed.1, List.pairwise_singleton _ _, fun t mem s last => ?_⟩
  cases List.mem_singleton.1 last
  exact (timed.2.2 t mem now (by simp)).trans_lt later

theorem now_conclude (c : Core τ σ) (ticket : Nat) (owner : Owner) (began : τ)
    (outcome : Outcome) : (c.conclude ticket owner began outcome).now = c.now := by
  cases owner <;> rfl

variable [Clock τ] [IsTrans τ (· < ·)] {c d : Core τ σ} {l : Line τ σ}

/-- Acts keep the times in order. -/
theorem Timed.act (timed : c.Timed) (orderly : c.Orderly l) (act : Act c d) : d.Timed := by
  unfold Timed at timed ⊢
  cases act with
  | @join owner admitted =>
    have now : (c.expect owner).now = c.now := by cases owner <;> rfl
    have attempts : (c.expect owner).attempts = c.attempts := by cases owner <;> rfl
    simpa [enqueue, now, attempts, Attempt.times] using timed
  | start free head work =>
    obtain ⟨a, waiting, line, rfl, rfl⟩ := orderly.at_head free head
    rw [line] at orderly
    rw [orderly.times] at timed
    rw [(orderly.start c.now work).times]
    have again : (l.ended.flatMap Attempt.times ++ [c.now, c.now]).Pairwise NotAfter :=
      pairwise_again (by simpa using timed)
    simpa [setStage, take, Attempt.times] using again
  | resume there work =>
    obtain ⟨ended, current, waiting⟩ := l
    obtain ⟨rfl, rfl⟩ := orderly.at_current there rfl
    rw [orderly.times] at timed
    rw [(orderly.resume _ work).times]
    exact timed
  | conclude there outcome =>
    obtain ⟨ended, current, waiting⟩ := l
    obtain ⟨rfl, rfl⟩ := orderly.at_current there rfl
    rw [orderly.times] at timed
    rw [(orderly.conclude _ _ outcome).times, now_conclude]
    have again := pairwise_again timed
    simpa [Attempt.times] using again
  | found idle => exact timed
  | retire => exact timed
  | pass later => exact pairwise_later timed later

theorem Timed.acts (timed : c.Timed) (kept : c.Kept l) (acts : Relation.ReflTransGen Act c d) :
    d.Timed := by
  induction acts with
  | refl => exact timed
  | tail before last ih =>
    obtain ⟨m, kept, -⟩ := kept.acts before
    exact ih.act kept.orderly last

end Core

/-! ## The times of a course -/

theorem Attempt.sublist_times {τ σ : Type} (attempts : List (Attempt τ σ)) :
    ((attempts.filterMap Attempt.course?).map Prod.fst).Sublist
      (attempts.flatMap Attempt.times) := by
  induction attempts with
  | nil => exact .slnil
  | cons a rest ih =>
    obtain ⟨owner, arrived, stage⟩ := a
    cases stage with
    | queued => exact ih
    | fetching began work => exact ih.cons began
    | ended began ended outcome verdict => exact (ih.cons ended).cons_cons began

/-- The fetches of the attempts that have ended began one after the other. -/
theorem Core.Timed.course {τ σ : Type} [LT τ] {c : Core τ σ} (timed : c.Timed) :
    ((c.attempts.filterMap Attempt.course?).map Prod.fst).Pairwise NotAfter :=
  (List.pairwise_append.1 timed).1.sublist (Attempt.sublist_times c.attempts)

/-- After more of a course the snapshot is no older. -/
theorem Ledger.fetchedAt_replay {τ : Type} [LT τ] {strict : Bool} {course more : List (τ × Outcome)}
    (timed : ((course ++ more).map Prod.fst).Pairwise NotAfter) {earlier later : Snapshot τ}
    (before : (replay strict course).snapshot = some earlier)
    (after : (replay strict (course ++ more)).snapshot = some later) :
    NotAfter earlier.fetchedAt later.fetchedAt := by
  rcases snapshot_replay_append strict course more with same | ⟨s, shown, new⟩
  · rw [same, before] at after
    cases after
    exact .inl rfl
  · rw [after] at shown
    cases shown
    rcases snapshot_replay_append strict [] course with none | ⟨s, shown, old⟩
    · rw [List.nil_append, before] at none
      cases none
    · rw [List.nil_append, before] at shown
      cases shown
      rw [List.map_append, List.pairwise_append] at timed
      exact timed.2.2 _ old _ new

end ApiCatalog
