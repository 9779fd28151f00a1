/-
# ApiCatalog.Proofs.Outcomes -- each attempt ends with what its own fetch ended with

The n-th attempt makes the n-th fetch: it starts when as many fetches were
started as there were attempts before it (`Orderly.fetches_eq`).  So what it has
done is what the source does in its n-th fetch (`Core.Faithful`), and it ends
with what that fetch yields.

`Core.Sound` gathers what holds of the core of every reachable world
(`Reachable.sound`), and what a further run adds to it (`Sound.moves`).
-/
import ApiCatalog.Proofs.Books
import ApiCatalog.Proofs.Fetches
import ApiCatalog.Proofs.Moves

namespace ApiCatalog

set_option autoImplicit false

/-- An attempt has done what the source does in the fetch of a number. -/
def Attempt.Follows {τ σ κ : Type} (source : Source τ σ κ) (n : Nat) (a : Attempt τ σ) : Prop :=
  match a.stage with
  | .queued => True
  | .fetching _ work => ∃ p, source.Course n p ∧ p.outcome = none ∧ p.work = work
  | .ended _ _ outcome _ => source.Yields n outcome

namespace Core

variable {τ σ κ : Type} {source : Source τ σ κ} {c d : Core τ σ} {l : Line τ σ}

/-- Every attempt has done what the source does in the fetch of its number. -/
def Faithful (source : Source τ σ κ) (c : Core τ σ) : Prop :=
  ∀ n (a : Attempt τ σ), c.attempts[n]? = some a → a.Follows source n

/-- The fetches that were started are those of the attempts that do not wait. -/
theorem Orderly.fetches_eq (orderly : c.Orderly l) :
    c.fetches = l.ended.length + l.current.toList.length := by
  have ended : l.ended.countP Attempt.isStarted = l.ended.length :=
    List.countP_eq_length.2 fun a mem => Attempt.isStarted_of_isEnded (orderly.ended a mem)
  have current : l.current.toList.countP Attempt.isStarted = l.current.toList.length :=
    List.countP_eq_length.2 fun a mem =>
      Attempt.isStarted_of_isFetching (orderly.current a (Option.mem_toList.1 mem))
  have waiting : l.waiting.countP Attempt.isStarted = 0 :=
    List.countP_eq_zero.2 fun a mem => by simp [Attempt.isStarted, orderly.waiting a mem]
  rw [fetches, orderly.attempts, Line.attempts, List.countP_append, List.countP_append, ended,
    current, waiting, Nat.add_zero]

/-! ## Moves keep to the source -/

theorem attempts_goOn (owner : Owner) (verdict : Verdict) (c : Core τ σ) :
    (c.goOn owner verdict).attempts = c.attempts := by
  cases owner <;> rfl

theorem attempts_expect (owner : Owner) (c : Core τ σ) :
    (c.expect owner).attempts = c.attempts := by
  cases owner <;> rfl

/-- An attempt has ended with what the fetch of its number yields. -/
theorem Faithful.yields (faithful : c.Faithful source) {n : Nat} {a : Attempt τ σ}
    (there : c.attempts[n]? = some a) {fetch : τ × Outcome} (course : a.course? = some fetch) :
    source.Yields n fetch.2 := by
  have follows := faithful n a there
  obtain ⟨owner, arrived, stage⟩ := a
  cases stage with
  | ended began ended outcome verdict =>
    cases course
    exact follows
  | _ => cases course

theorem Faithful.setStage (faithful : c.Faithful source) {ticket : Nat}
    (stage : AttemptStage τ σ)
    (follows : ∀ a : Attempt τ σ, Attempt.Follows source ticket { a with stage }) :
    (c.setStage ticket stage).Faithful source := by
  intro n a there
  simp only [Core.setStage, List.getElem?_modify] at there
  split at there
  · rename_i same
    subst same
    obtain ⟨before, -, rfl⟩ := Option.map_eq_some_iff.1 there
    exact follows before
  · exact faithful n a (by simpa using there)

theorem Faithful.absorb (faithful : c.Faithful source) {ticket : Nat} {p : Progress τ σ κ}
    (course : source.Course ticket p) (owner : Owner) (began : τ) :
    (c.absorb ticket owner began p).Faithful source := by
  simp only [Core.absorb]
  cases ends : p.outcome with
  | none => exact faithful.setStage _ fun a => ⟨p, course, ends, rfl⟩
  | some outcome =>
    have yields : source.Yields ticket outcome := ⟨p, course, ends⟩
    intro n a there
    simp only [conclude, attempts_goOn, settle, Core.setStage, List.modify_modify_eq] at there
    exact faithful.setStage (.ended began c.now outcome (Verdict.of c.strict outcome))
      (fun _ => yields) n a there

theorem Faithful.move [Clock τ] (faithful : c.Faithful source) (orderly : c.Orderly l)
    (move : Move source c d) : d.Faithful source := by
  cases move with
  | @join owner admitted =>
    intro n a there
    simp only [enqueue, attempts_expect, List.getElem?_append] at there
    split at there
    · exact faithful n a there
    · cases List.mem_singleton.1 (List.mem_of_getElem? there)
      trivial
  | start free head there =>
    -- the source is asked for the fetch whose number is the ticket
    obtain ⟨a, waiting, line, rfl, rfl⟩ := orderly.at_head free head
    have number : c.fetches = l.ended.length := by
      rw [orderly.fetches_eq, line]
      rfl
    rw [number]
    exact Faithful.absorb (c := c.take _) faithful .start _ _
  | resume there token =>
    obtain ⟨p, course, unfinished, rfl⟩ := faithful _ _ there
    exact faithful.absorb (course.resume unfinished token) _ _
  | found idle => exact faithful
  | retire => exact faithful
  | pass later => exact faithful

/-! ## Sound cores -/

theorem strict_of_act [Clock τ] (act : Act c d) : d.strict = c.strict := by
  cases act with
  | @join owner admitted => cases owner <;> rfl
  | @conclude ticket owner arrived began work there outcome => cases owner <;> rfl
  | _ => rfl

theorem strict_of_acts [Clock τ] (acts : Relation.ReflTransGen Act c d) :
    d.strict = c.strict := by
  induction acts with
  | refl => rfl
  | tail before last ih => exact (strict_of_act last).trans ih

/-- What holds of the core of every reachable world. -/
structure Sound (source : Source τ σ κ) (strict : Bool) (c : Core τ σ) (l : Line τ σ) : Prop where
  kept : c.Kept l
  faithful : c.Faithful source
  strict : c.strict = strict

/-- Moves keep a core sound, and its line grows. -/
theorem Sound.moves [Clock τ] {strict : Bool} (sound : c.Sound source strict l)
    (moves : c.Moves source d) : ∃ m, d.Sound source strict m ∧ l.Grows m := by
  unfold Moves at moves
  induction moves with
  | refl => exact ⟨l, sound, .refl l⟩
  | tail before last ih =>
    obtain ⟨m, sound, grows⟩ := ih
    obtain ⟨n, kept, further⟩ := sound.kept.acts (acts_of_move last)
    exact ⟨n, ⟨kept, sound.faithful.move sound.kept.orderly last,
      (strict_of_acts (acts_of_move last)).trans sound.strict⟩, grows.trans further⟩

/-- What is told of an attempt is what its outcome means. -/
theorem Sound.judged {strict : Bool} (sound : c.Sound source strict l) {a : Attempt τ σ}
    (mem : a ∈ c.attempts) : a.verdict? = a.course?.map fun fetch => Verdict.of strict fetch.2 := by
  rw [← sound.strict]
  exact sound.kept.judged mem

end Core

namespace World

variable {τ σ κ : Type} {source : Source τ σ κ} {strict : Bool} {v w : World τ σ κ}

/-- What is shown is the ledger of the fetches that have ended. -/
theorem ledger_eq {l : Line τ σ} (sound : (core w).Sound source strict l) :
    w.state.ledger = Ledger.replay strict w.state.course := by
  have ledger : w.state.ledger = Ledger.replay w.state.strict (l.ended.filterMap Attempt.course?) :=
    sound.kept.shown.ledger
  have same : w.state.strict = strict := sound.strict
  rw [same, ← sound.kept.orderly.course] at ledger
  exact ledger

theorem snapshot_eq {l : Line τ σ} (sound : (core w).Sound source strict l) :
    w.state.snapshot = (Ledger.replay strict w.state.course).snapshot :=
  congrArg Ledger.snapshot (ledger_eq sound)

/-- Every fetch of the course was made by the attempt of its number. -/
theorem exists_of_course {l : Line τ σ} (sound : (core w).Sound source strict l) {n : Nat}
    {fetch : τ × Outcome} (made : w.state.course[n]? = some fetch) :
    ∃ a, w.state.attempts[n]? = some a ∧ a.course? = some fetch ∧
      a.verdict? = some (Verdict.of strict fetch.2) := by
  have place := (sound.kept.orderly.getElem?_course n).symm.trans made
  obtain ⟨a, there, course⟩ := Option.bind_eq_some_iff.1 place
  refine ⟨a, there, course, ?_⟩
  rw [sound.judged (List.mem_of_getElem? there), course, Option.map_some]

/-- The calls to refresh are those that attempts were made for. -/
theorem asked_eq {l : Line τ σ} (kept : (core w).Kept l) :
    w.state.asked = w.state.attempts.filterMap Attempt.asked? := by
  have asked : (core w).asked = l.attempts.filterMap Attempt.asked? := kept.told.asked
  rw [← kept.orderly.attempts] at asked
  exact asked

/-- Every call to refresh has an attempt of its own. -/
theorem exists_attempt {l : Line τ σ} (kept : (core w).Kept l) {id : Nat}
    {answer : Option Answer} (there : w.state.callers[id]? = some ⟨.refresh, answer⟩) :
    ∃ (n : Nat) (a : Attempt τ σ), w.state.attempts[n]? = some a ∧ a.owner = .caller id := by
  have asked : (id, answer) ∈ w.state.asked := Keeper.mem_asked_iff.2 ⟨_, there, rfl⟩
  rw [asked_eq kept] at asked
  obtain ⟨a, mem, is⟩ := List.mem_filterMap.1 asked
  obtain ⟨n, place⟩ := List.mem_iff_getElem?.1 mem
  refine ⟨n, a, place, ?_⟩
  cases owner : a.owner with
  | loop => simp [Attempt.asked?, owner] at is
  | caller number =>
    simp only [Attempt.asked?, owner, Option.some.injEq, Prod.mk.injEq] at is
    rw [is.1]

/-- A caller is answered what became of its own attempt. -/
theorem answerOf_eq {l : Line τ σ} (kept : (core w).Kept l) {a : Attempt τ σ}
    (mem : a ∈ w.state.attempts) {id : Nat} (mine : a.owner = .caller id) :
    w.state.answerOf id = a.verdict?.map answerOf := by
  refine Keeper.answerOf_of_mem_asked ?_
  rw [asked_eq kept]
  exact List.mem_filterMap.2 ⟨a, mem, by simp [Attempt.asked?, mine]⟩

/-- A caller is told of the verdict on its own attempt, and is told nothing before. -/
theorem tells_answer {l : Line τ σ} (kept : (core w).Kept l) {a : Attempt τ σ}
    (mem : a ∈ w.state.attempts) {id : Nat} (mine : a.owner = .caller id) :
    Option.Rel Verdict.Tells a.verdict? (w.state.answerOf id) := by
  rw [answerOf_eq kept mem mine]
  cases a.verdict? with
  | none => exact .none
  | some verdict => exact .some verdict.tells_answerOf

/-- A caller is answered when its own attempt has ended. -/
theorem isSome_answerOf {l : Line τ σ} (kept : (core w).Kept l) {a : Attempt τ σ}
    (mem : a ∈ w.state.attempts) {id : Nat} (mine : a.owner = .caller id) :
    (w.state.answerOf id).isSome = a.isEnded := by
  rw [answerOf_eq kept mem mine, Option.isSome_map, Attempt.isSome_verdict?]

variable [Clock τ] [DecidableEq κ]

theorem moves_of_run (run : Run source v w) : (core v).Moves source (core w) := by
  refine run.keeps (P := fun u => (core v).Moves source (core u)) ?_ .refl
  intro u u' step moves
  exact Relation.ReflTransGen.trans moves (moves_of_step step)

/-- The core of a reachable world is sound. -/
theorem Reachable.sound (reached : Reachable source strict w) :
    ∃ l, (core w).Sound source strict l := by
  have first : (core (init strict : World τ σ κ)).Sound source strict ⟨[], none, []⟩ :=
    ⟨.init strict κ, fun n a there => (nomatch there), rfl⟩
  obtain ⟨l, sound, -⟩ := first.moves (moves_of_run reached)
  exact ⟨l, sound⟩

/-- A further run adds to what has arrived and to what has ended. -/
theorem prefix_of_run (reached : Reachable source strict v) (onward : Run source v w) :
    v.state.attempts.map Attempt.arrival <+: w.state.attempts.map Attempt.arrival ∧
      v.state.course <+: w.state.course := by
  obtain ⟨l, sound⟩ := reached.sound
  obtain ⟨m, sound', grows⟩ := sound.moves (moves_of_run onward)
  have arrivals := grows.arrivals
  have course := grows.ended.filterMap Attempt.course?
  rw [← sound.kept.orderly.attempts, ← sound'.kept.orderly.attempts] at arrivals
  rw [← sound.kept.orderly.course, ← sound'.kept.orderly.course] at course
  exact ⟨arrivals, course⟩

/-- What was shown at some time is the ledger of the fetches that had ended by then. -/
theorem ledger_of_run (reached : Reachable source strict v) (onward : Run source v w) :
    v.state.ledger = Ledger.replay strict (w.state.course.take v.state.completed) := by
  obtain ⟨l, sound⟩ := reached.sound
  rw [ledger_eq sound, ← v.state.length_course]
  exact congrArg (Ledger.replay strict)
    (List.prefix_iff_eq_take.1 (prefix_of_run reached onward).2)

end World

end ApiCatalog
