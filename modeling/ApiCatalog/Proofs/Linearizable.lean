/-
# ApiCatalog.Proofs.Linearizable -- overlapping refreshes are made one after the other

Refreshes may overlap in any way.  What is shown after some of them have ended is
what the ledger says after as many refreshes that are made by themselves, one
after the other, with the same results; and each is answered as it would be
then, those of the loop by its reports.

The results come from the source: where each fetch has one result, the fetches
that have ended are the first ones, in order (`Sound.outcomes`), and the attempt
of a number is told of the result of that number (`Sound.verdict`).
-/
import ApiCatalog.Proofs.Outcomes
import Mathlib.Data.List.Induction

namespace ApiCatalog

set_option autoImplicit false

theorem filterMap_eq_map_range {α β : Type} {f : α → Option β} {g : Nat → β} {xs : List α}
    (each : ∀ n x, xs[n]? = some x → f x = some (g n)) :
    xs.filterMap f = (List.range xs.length).map g := by
  induction xs using List.reverseRecOn with
  | nil => rfl
  | append_singleton xs x ih =>
    have last : f x = some (g xs.length) := each _ x (by simp)
    have before : ∀ n y, xs[n]? = some y → f y = some (g n) := by
      intro n y there
      have inside := (List.getElem?_eq_some_iff.1 there).1
      exact each n y (by rw [List.getElem?_append_left inside, there])
    rw [List.filterMap_append, ih before, List.length_append, List.length_singleton,
      List.range_succ, List.map_append]
    simp [last]

namespace Core

variable {τ σ κ : Type} {source : Source τ σ κ} {strict : Bool} {c : Core τ σ} {l : Line τ σ}

/-! ## What they ended with -/

variable {result : Nat → Outcome}

/-- An attempt ends with the result of its number. -/
theorem Sound.outcome (sound : c.Sound source strict l)
    (single : ∀ n outcome, source.Yields n outcome → outcome = result n) {n : Nat}
    {a : Attempt τ σ} (there : l.ended[n]? = some a) :
    a.course?.map Prod.snd = some (result n) := by
  have orderly := sound.kept.orderly
  have inside := (List.getElem?_eq_some_iff.1 there).1
  have place : c.attempts[n]? = some a := by
    rw [orderly.attempts_eq, List.getElem?_append_left inside, there]
  have ended := orderly.ended a (List.mem_of_getElem? there)
  rw [← a.isSome_course?] at ended
  obtain ⟨fetch, course⟩ := Option.isSome_iff_exists.1 ended
  rw [course, Option.map_some, single n fetch.2 (sound.faithful.yields place course)]

/-- The fetches that have ended are the first ones, in order. -/
theorem Sound.outcomes (sound : c.Sound source strict l)
    (single : ∀ n outcome, source.Yields n outcome → outcome = result n) :
    (c.attempts.filterMap Attempt.course?).map Prod.snd =
      (List.range l.ended.length).map result := by
  rw [sound.kept.orderly.course, List.map_filterMap]
  exact filterMap_eq_map_range fun n a there => sound.outcome single there

/-- Of an attempt is told what its own result means, once it has ended and not before. -/
theorem Sound.verdict (sound : c.Sound source strict l)
    (single : ∀ n outcome, source.Yields n outcome → outcome = result n) {n : Nat}
    {a : Attempt τ σ} (there : c.attempts[n]? = some a) :
    a.verdict? = (((List.range l.ended.length).map result)[n]?).map (Verdict.of strict) := by
  have outcome : a.course?.map Prod.snd = ((List.range l.ended.length).map result)[n]? := by
    have orderly := sound.kept.orderly
    rw [orderly.attempts_eq] at there
    rcases Nat.lt_or_ge n l.ended.length with inside | outside
    · rw [List.getElem?_append_left inside] at there
      rw [sound.outcome single there]
      simp [inside]
    · rw [List.getElem?_append_right outside] at there
      rw [(orderly.unknown (List.mem_of_getElem? there)).2.2]
      simp [outside]
  rw [sound.judged (List.mem_of_getElem? there), ← outcome, Option.map_map]
  rfl

end Core

namespace World

variable {τ : Type} [Clock τ] {replies : Nat → Reply τ (Option (List Listing))} {strict : Bool}
  {w : World τ Outcome Unit}

/-- The fetches that have ended are those of the first replies, in order. -/
theorem course_answering (reached : Reachable (.answering replies) strict w) :
    w.state.course.map Prod.snd = Source.firstResults replies w.state.completed := by
  obtain ⟨l, sound⟩ := reached.sound
  have outcomes := sound.outcomes fun n outcome => Source.yields_answering_iff.1
  rwa [← sound.kept.orderly.completed] at outcomes

/-- Over a script the fetches end as it says, the last reply repeating for ever. -/
theorem course_scripted {script : Script (Reply τ (Option (List Listing)))}
    (reached : Reachable (.scripted script) strict w) :
    w.state.course.map Prod.snd =
      (List.range w.state.completed).map fun n => (script.at n).answer := by
  rw [Source.scripted_eq_answering] at reached
  exact course_answering reached

/-- However refreshes overlap, what is shown and what is answered is what the first results say,
taken one after the other. -/
theorem refreshes_linearizable (reached : Reachable (.answering replies) strict w) :
    w.state.course.map Prod.snd = Source.firstResults replies w.state.completed ∧
    w.state.ledger = Ledger.replay strict w.state.course ∧
    w.state.reports = w.state.attempts.flatMap Attempt.report ∧
    ∀ (n : Nat) (a : Attempt τ Outcome), w.state.attempts[n]? = some a →
      a.verdict? =
        (Source.firstResults replies w.state.completed)[n]?.map (Verdict.of strict) ∧
      ∀ id, a.owner = .caller id →
        Option.Rel Verdict.Tells
          ((Source.firstResults replies w.state.completed)[n]?.map (Verdict.of strict))
          (w.state.answerOf id) := by
  obtain ⟨l, sound⟩ := reached.sound
  refine ⟨course_answering reached, ledger_eq sound, sound.kept.reports, fun n a there => ?_⟩
  have verdict : a.verdict? =
      (Source.firstResults replies w.state.completed)[n]?.map (Verdict.of strict) := by
    have verdict := sound.verdict (fun n outcome => Source.yields_answering_iff.1) there
    rwa [← sound.kept.orderly.completed] at verdict
  refine ⟨verdict, fun id mine => ?_⟩
  rw [← verdict]
  exact tells_answer sound.kept (List.mem_of_getElem? there) mine

/-- Two calls to refresh and the loop overlap: the first fetch is in flight until the second unit,
and fails then. -/
theorem refreshes_linearizable_overlapping :
    let source : Source Int Outcome Unit := .answering Source.unsteady
    let w := advance source 3 20 <| call source (.start 5) <| call source .refresh <|
      call source .refresh <| init true
    Reachable source true w ∧ w.state.completed = 3 ∧
      w.state.course.map Prod.snd = Source.firstResults Source.unsteady 3 ∧
      w.state.ledger = Ledger.replay true w.state.course ∧
      (w.state.answerOf 0 matches some (.truth false)) ∧
      (w.state.answerOf 1 matches some (.truth true)) := by
  intro source w
  have reached : Reachable source true w :=
    ((run_call .refresh _).trans (run_call .refresh _)).trans (run_call (.start 5) _)
      |>.trans (run_advance 3 20 _)
  have completed : w.state.completed = 3 := by decide
  obtain ⟨results, ledger, -⟩ := refreshes_linearizable reached
  rw [completed] at results
  exact ⟨reached, completed, results, ledger, by decide, by decide⟩

end World

end ApiCatalog
