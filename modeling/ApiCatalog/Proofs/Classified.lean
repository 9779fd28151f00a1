/-
# ApiCatalog.Proofs.Classified -- how a refresh of a cluster ends

A refresh of a cluster is meant to end in one of three ways: it publishes all that
is served; or the survey fails, and the refresh answers false; or a strict reader
cannot read the group-version of a reply, and the refresh fails with that
(`Survey.Classified`).  In the last two cases the snapshot is kept, and the last
error is the failure.

An item without a name or a kind is a failure of the survey.  But a name that is
there and null passes the survey, and stops the indexing: this is the one other
way (`Survey.Stops.crash`).  The refresh fails with it, and it is not recorded.
Nothing else that a cluster may reply has such an end (`refresh_classified`).

What stops the indexing is said here of replies; the first of them counts, when all
requests are served (`Survey.Stopped`, `Survey.stopped_iff`).
-/
import ApiCatalog.Proofs.Answering
import ApiCatalog.Proofs.Leniency
import ApiCatalog.Proofs.Published

namespace ApiCatalog

set_option autoImplicit false

namespace Survey

/-! ## Replies that stop the indexing -/

/-- The reply goes by a group-version that cannot be read. -/
def Illegible (inquiry : Inquiry) (cause : Malformed) : Prop :=
  ∃ reply text, inquiry.2 = .ok reply ∧ reply.GoesBy inquiry.1 text ∧
    GroupVersion.parse text = .error cause

/-- The reply goes by a group-version that can be read, and the name of an item is null. -/
def Unnamed (inquiry : Inquiry) : Prop :=
  ∃ reply text gv, inquiry.2 = .ok reply ∧ reply.GoesBy inquiry.1 text ∧
    GroupVersion.parse text = .ok gv ∧ ∃ item ∈ reply.items.getD [], item.name = .null

/-- A reply that is served stops the indexing. -/
inductive Stops (strict : Bool) (inquiry : Inquiry) : Failure → Prop
  | breach {cause : Malformed} (strictly : strict = true) (illegible : Illegible inquiry cause) :
    Stops strict inquiry (.malformed cause)
  | crash (unnamed : Unnamed inquiry) : Stops strict inquiry .wrongShape

section

variable {strict : Bool} {inquiry : Inquiry} {listing : Listing} {why : Failure}

theorem Serves.not_refuses (serves : Serves inquiry listing) : ¬ Refuses inquiry why := by
  rw [← listing_eq_error_iff, listing_eq_ok_iff.2 serves]
  exact nofun

theorem Serves.fault?_eq_some_iff (serves : Serves inquiry listing) {cause : Malformed} :
    listing.fault? = some cause ↔ Illegible inquiry cause := by
  obtain ⟨goesBy, each⟩ := serves
  rw [Listing.fault?_eq_some_iff]
  constructor
  · rintro ⟨text, named, unread⟩
    cases named
    exact ⟨_, _, rfl, goesBy, unread⟩
  · rintro ⟨reply, text, same, goesBy', unread⟩
    cases same
    exact ⟨text, congrArg some (goesBy.unique goesBy'), unread⟩

/-- A record has a null name where its item has one. -/
theorem nameless_iff {items : List Item} {records : List Record}
    (each : List.Forall₂ Item.Gives items records) :
    (∃ r ∈ records, r.name = none) ↔ ∃ item ∈ items, item.name = .null := by
  refine (exists_iff_of_forall₂ each fun {item r} gives => ?_).symm
  rw [gives.name]
  cases name : item.name with
  | absent => exact absurd (.inl name) gives.readable
  | null => simp [Field.value?]
  | given value => simp [Field.value?]

theorem Serves.failure?_eq_some_iff (serves : Serves inquiry listing) :
    listing.failure? = some why ↔ Unnamed inquiry ∧ why = .wrongShape := by
  obtain ⟨goesBy, each⟩ := serves
  rw [Listing.failure?_eq_some_iff]
  constructor
  · rintro (⟨missing, -⟩ | ⟨text, gv, named, read, nameless, rfl⟩)
    · cases missing
    · cases named
      exact ⟨⟨_, _, gv, rfl, goesBy, read, (nameless_iff each).1 (nameless _ rfl)⟩, rfl⟩
  · rintro ⟨⟨reply, text, gv, same, goesBy', read, null⟩, rfl⟩
    cases same
    refine .inr ⟨text, gv, congrArg some (goesBy.unique goesBy'), read, fun records held => ?_, rfl⟩
    cases held
    exact (nameless_iff each).2 null

/-- What is served stops a reader exactly as its reply says. -/
theorem Serves.assess_eq_refused_iff (serves : Serves inquiry listing) :
    Snapshot.assess strict listing = .refused why ↔ Stops strict inquiry why := by
  rw [Snapshot.assess_eq_refused_iff, serves.failure?_eq_some_iff]
  constructor
  · rintro (⟨strictly, cause, unread, rfl⟩ | ⟨unnamed, rfl⟩)
    · exact .breach strictly (serves.fault?_eq_some_iff.1 unread)
    · exact .crash unnamed
  · rintro (⟨strictly, illegible⟩ | unnamed)
    · exact .inl ⟨strictly, _, serves.fault?_eq_some_iff.2 illegible, rfl⟩
    · exact .inr ⟨unnamed, rfl⟩

end

/-- The first of some replies that stops the indexing, does so for a cause. -/
def StopsFirst (strict : Bool) (inquiries : List Inquiry) (why : Failure) : Prop :=
  ∃ before inquiry after, inquiries = before ++ inquiry :: after ∧
    (∀ earlier ∈ before, ∀ why', ¬ Stops strict earlier why') ∧ Stops strict inquiry why

/-- Indexing what is served stops at the first reply that stops it. -/
theorem result_index_eq_error_iff {strict : Bool} {inquiries : List Inquiry}
    {listings : List Listing} (served : List.Forall₂ Serves inquiries listings) {why : Failure} :
    (Snapshot.index strict (some listings)).result = .error why ↔
      StopsFirst strict inquiries why := by
  rw [Snapshot.result_index_eq_error_iff]
  constructor
  · rintro ⟨before, listing, after, rfl, passed, refused⟩
    obtain ⟨before', inquiry, after', rfl, each, serves, -⟩ := split_of_forall₂ served
    refine ⟨before', inquiry, after', rfl, fun earlier mem why' stops => ?_,
      serves.assess_eq_refused_iff.1 refused⟩
    obtain ⟨l, there, serves'⟩ := (exists_of_forall₂ each).1 earlier mem
    exact passed l there why' (serves'.assess_eq_refused_iff.2 stops)
  · rintro ⟨before, inquiry, after, rfl, passed, stops⟩
    obtain ⟨before', listing, after', rfl, each, serves, -⟩ := split_of_forall₂ served.flip
    refine ⟨before', listing, after', rfl, fun l mem why' refused => ?_,
      Serves.assess_eq_refused_iff serves |>.2 stops⟩
    obtain ⟨earlier, there, serves'⟩ := (exists_of_forall₂ each).1 l mem
    exact passed earlier there why' (Serves.assess_eq_refused_iff serves' |>.1 refused)

/-! ## Clusters that stop the indexing -/

variable {τ : Type} {cluster : Cluster τ} {strict : Bool}

/-- Every request to the cluster is served, and then a reply stops the indexing. -/
inductive Stopped (strict : Bool) (cluster : Cluster τ) (why : Failure) : Prop
  | of_served {listed : List String} (lists : Lists cluster listed)
      (served : ∀ inquiry ∈ inquiries cluster listed, ∀ other, ¬ Refuses inquiry other)
      (first : StopsFirst strict (inquiries cluster listed) why)

theorem Lists.eq {listed listed' : List String} (lists : Lists cluster listed)
    (lists' : Lists cluster listed') : listed = listed' := by
  obtain ⟨core, groups⟩ := lists
  obtain ⟨core', groups'⟩ := lists'
  rw [core] at core'
  rw [groups] at groups'
  cases core'
  cases groups'
  rfl

theorem Lists.not_unlisted {listed : List String} (lists : Lists cluster listed)
    (why : Failure) : ¬ Unlisted cluster why := by
  obtain ⟨core, groups⟩ := lists
  rintro (failed | ⟨-, failed⟩)
  · rw [core] at failed
    cases failed
  · rw [groups] at failed
    cases failed

theorem Lists.uncancelled {listed : List String} (lists : Lists cluster listed) (n : Nat) :
    ¬ Unlisted (Script.at ⟨cluster, []⟩ n) .cancelled := by
  rw [Script.at_alone]
  exact lists.not_unlisted _

/-- A cluster stops the indexing of what is served of it. -/
theorem stopped_iff {why : Failure} :
    Stopped strict cluster why ↔
      ∃ listings, outcomeOf cluster = .ok listings ∧
        (Snapshot.index strict listings).result = .error why := by
  have surveyed := surveyed cluster
  constructor
  · rintro ⟨lists, served, first⟩
    generalize outcomeOf cluster = outcome at surveyed ⊢
    cases surveyed with
    | cancelled stopped => exact absurd stopped (lists.not_unlisted _)
    | unlisted stopped other => exact absurd stopped (lists.not_unlisted _)
    | incomplete lists' failed refused keys last =>
      cases lists.eq lists'
      obtain ⟨inquiry, mem, other, refuses⟩ := refused
      exact absurd refuses (served inquiry mem other)
    | complete lists' listings each =>
      cases lists.eq lists'
      exact ⟨some listings, rfl, (result_index_eq_error_iff each).2 first⟩
  · rintro ⟨listings, outcome, failed⟩
    rw [outcome] at surveyed
    cases surveyed with
    | complete lists listings each =>
      refine ⟨lists, fun inquiry mem other => ?_, (result_index_eq_error_iff each).1 failed⟩
      obtain ⟨listing, -, serves⟩ := (exists_of_forall₂ each).1 inquiry mem
      exact serves.not_refuses

/-! ## The end of a refresh -/

/-- A refresh of a cluster ends in one of three ways, with what is shown before and after it. -/
inductive Classified (strict : Bool) (cluster : Cluster τ) (began : τ) (before : Ledger τ) :
    Verdict → Ledger τ → Prop
  | published {listings : List Listing} {entries : Table String Entry}
      (served : Surveyed cluster (.ok (some listings)))
      (indexed : (Snapshot.index strict (some listings)).result = .ok entries) :
      Classified strict cluster began before .published ⟨some ⟨entries, began⟩, none⟩
  | failed {why : Failure} (failed : Surveyed cluster (.error why)) :
      Classified strict cluster began before (.kept why) ⟨before.snapshot, some why⟩
  | breach {cause : Malformed} (strictly : strict = true)
      (stopped : Stopped strict cluster (.malformed cause)) :
      Classified strict cluster began before (.raised (.malformed cause))
        ⟨before.snapshot, some (.malformed cause)⟩

/-- The verdict and the ledger of a refresh are classified, unless indexing has met a null name; then
the refresh fails and nothing is recorded. -/
theorem classified_of_outcome (uncancelled : ¬ Unlisted cluster .cancelled) (began : τ)
    (before : Ledger τ) :
    (¬ Stopped strict cluster .wrongShape →
      Classified strict cluster began before (Verdict.of strict (outcomeOf cluster))
        (before.after strict began (outcomeOf cluster))) ∧
    (Stopped strict cluster .wrongShape →
      Verdict.of strict (outcomeOf cluster) = .raised .wrongShape ∧
        before.after strict began (outcomeOf cluster) = before) := by
  have surveyed := surveyed cluster
  have stopped (why : Failure) : Stopped strict cluster why ↔ _ := stopped_iff
  generalize outcomeOf cluster = outcome at surveyed stopped ⊢
  cases outcome with
  | error why =>
    have other : why ≠ .cancelled := by
      rintro rfl
      cases surveyed with
      | cancelled stopped => exact uncancelled stopped
    refine ⟨fun _ => ?_, fun crash => ?_⟩
    · cases why with
      | cancelled => exact absurd rfl other
      | _ => exact .failed surveyed
    · obtain ⟨listings, same, -⟩ := (stopped _).1 crash
      cases same
  | ok listings =>
    cases surveyed with
    | complete lists listings each =>
      have crashes : Stopped strict cluster .wrongShape ↔
          (Snapshot.index strict (some listings)).result = .error .wrongShape := by
        simp [stopped]
      rw [crashes]
      cases indexed : (Snapshot.index strict (some listings)).result with
      | ok entries =>
        simp only [Verdict.of, Ledger.after, indexed]
        refine ⟨fun _ => .published (.complete lists listings each) indexed, fun crash => ?_⟩
        cases crash
      | error why =>
        simp only [Verdict.of, Ledger.after, indexed]
        have halted : Stopped strict cluster why := (stopped why).2 ⟨_, rfl, indexed⟩
        obtain ⟨-, -, -, inquiry, -, -, -, stops⟩ := halted
        cases stops with
        | breach strictly illegible =>
          refine ⟨fun _ => .breach strictly ((stopped _).2 ⟨_, rfl, indexed⟩), fun crash => ?_⟩
          cases crash
        | crash unnamed => exact ⟨fun sound => absurd rfl sound, fun _ => ⟨rfl, rfl⟩⟩

end Survey

namespace World

open Survey

variable {τ : Type} [Clock τ] {timeout : τ} {clusters : Script (Cluster τ)} {strict : Bool}
  {w : World τ (Work τ) Token}

/-- Every call to refresh is answered by what becomes of its own attempt, and every refresh that has
ended is classified, whosever it is; but where indexing meets a null name, the refresh fails and
nothing is recorded. -/
theorem refresh_classified (reached : Reachable (source timeout clusters) strict w)
    (uncancelled : ∀ n, ¬ Unlisted (clusters.at n) .cancelled) :
    (∀ id answer, w.state.callers[id]? = some ⟨.refresh, answer⟩ →
      (∃ (n : Nat) (a : Attempt τ (Work τ)), w.state.attempts[n]? = some a ∧
        a.owner = .caller id ∧ a.isEnded = answer.isSome) ∧
      ∃ enough, ∀ fuel ≥ enough,
        ((await (source timeout clusters) id fuel w).state.answerOf id).isSome = true) ∧
    -- whatever was shown at some time is the ledger of the refreshes that had ended by then
    (∀ v, Reachable (source timeout clusters) strict v → Run (source timeout clusters) v w →
      v.state.ledger = Ledger.replay strict (w.state.course.take v.state.completed)) ∧
    ∀ (n : Nat) (a : Attempt τ (Work τ)), w.state.attempts[n]? = some a → a.isEnded = true →
      ∃ began verdict, a.verdict? = some verdict ∧
        (∀ id, a.owner = .caller id →
          ∃ answer, w.state.answerOf id = some answer ∧ verdict.Tells answer) ∧
        (¬ Stopped strict (clusters.at n) .wrongShape →
          Classified strict (clusters.at n) began (Ledger.replay strict (w.state.course.take n))
            verdict (Ledger.replay strict (w.state.course.take (n + 1)))) ∧
        (Stopped strict (clusters.at n) .wrongShape → verdict = .raised .wrongShape ∧
          Ledger.replay strict (w.state.course.take (n + 1)) =
            Ledger.replay strict (w.state.course.take n)) := by
  obtain ⟨l, sound⟩ := reached.sound
  refine ⟨fun id answer there => ⟨?_, ?_⟩, fun v before onward => ledger_of_run before onward,
    fun n a there ended => ?_⟩
  · obtain ⟨n, a, place, mine⟩ := exists_attempt sound.kept there
    refine ⟨n, a, place, mine, ?_⟩
    rw [← isSome_answerOf sound.kept (List.mem_of_getElem? place) mine, Keeper.answerOf, there]
    rfl
  · refine answered_of_await (fun _ => finite) (fun m token => ?_) reached there
    cases token <;> simp [cost]
  · have mem := List.mem_of_getElem? there
    rw [← a.isSome_course?] at ended
    obtain ⟨⟨began, outcome⟩, course⟩ := Option.isSome_iff_exists.1 ended
    have judged := sound.judged mem
    rw [course, Option.map_some] at judged
    -- the fetch of the attempt was the survey of its cluster
    obtain rfl : outcome = outcomeOf (clusters.at n) :=
      yields_iff.1 (sound.faithful.yields there course)
    have taken : w.state.course.take (n + 1) =
        w.state.course.take n ++ [(began, outcomeOf (clusters.at n))] :=
      sound.kept.orderly.take_course there course
    refine ⟨began, _, judged, fun id mine => ⟨_, ?_, Verdict.tells_answerOf _⟩, ?_⟩
    · rw [answerOf_eq sound.kept mem mine, judged]
      rfl
    · rw [taken, Ledger.replay_append_singleton]
      exact classified_of_outcome (uncancelled n) began _

/-- A strict refresh of a cluster whose reply goes by a group-version that cannot be read. -/
theorem refresh_classified_breach :
    let cluster := servingAs "apps/v1/beta"
    let source := source 10 ⟨cluster, []⟩
    let w := await source 0 20 (call source .refresh (init true))
    Reachable source true w ∧ (∀ n, ¬ Unlisted (Script.at ⟨cluster, []⟩ n) .cancelled) ∧
      (w.state.answerOf 0 matches some (.failed (.malformed _))) ∧
      ∃ began cause, Classified true cluster began {} (.raised (.malformed cause))
        ⟨none, some (.malformed cause)⟩ ∧ w.state.ledger = ⟨none, some (.malformed cause)⟩ := by
  intro cluster source w
  have reached : Reachable source true w := (run_call .refresh _).trans (run_await 0 20 _)
  have uncancelled : ∀ n, ¬ Unlisted (Script.at ⟨cluster, []⟩ n) .cancelled :=
    (lists_servingAs _).uncancelled
  have first : (w.state.attempts[0]?).any (fun a => a.isEnded && a.owner = .caller 0) = true := by
    decide
  have completed : w.state.completed = 1 := by decide
  have answered : (w.state.answerOf 0 matches some (.failed (.malformed _))) = true := by decide
  refine ⟨reached, uncancelled, answered, ?_⟩
  obtain ⟨a, there, is⟩ := (Option.any_eq_true _ _).1 first
  obtain ⟨ended, mine⟩ : a.isEnded = true ∧ a.owner = .caller 0 := by simpa using is
  obtain ⟨-, shown, each⟩ := refresh_classified reached uncancelled
  obtain ⟨began, verdict, -, told, classified, crashed⟩ := each 0 a there ended
  have ledger := shown w reached (.refl w)
  rw [completed] at ledger
  obtain ⟨answer, is, tells⟩ := told 0 mine
  rw [is] at answered
  rw [Script.at_alone] at classified crashed
  by_cases crash : Stopped true cluster .wrongShape
  · obtain ⟨rfl, -⟩ := crashed crash
    cases tells
    cases answered
  · have classified := classified crash
    rw [← ledger] at classified
    generalize w.state.ledger = left at classified
    cases classified with
    | published served indexed =>
      cases tells
      cases answered
    | failed failed =>
      cases tells
      cases answered
    | breach strictly stopped => exact ⟨began, _, .breach strictly stopped, rfl⟩

/-- A cluster with one group-version, whose reply goes by no name and has one item. -/
def servingItem (item : Item) : Cluster Int where
  coreVersions := ⟨none, .ok none⟩
  groups := ⟨none, .ok (some [some ["apps/v1"]])⟩
  resources := [("apps/v1", ⟨none, .ok ⟨none, some [item]⟩⟩)]

/-- A refresh of a cluster may have another end: a deployment whose name is null. -/
theorem refresh_unclassified :
    let cluster := servingItem { deployments with name := .null }
    let source := source 10 ⟨cluster, []⟩
    let w := await source 0 20 (call source .refresh (init true))
    Reachable source true w ∧ (∀ n, ¬ Unlisted (Script.at ⟨cluster, []⟩ n) .cancelled) ∧
      (w.state.answerOf 0 matches some (.failed .wrongShape)) ∧ w.state.lastError.isNone ∧
      ¬ ∃ answer, w.state.answerOf 0 = some answer ∧
        (answer = .truth true ∨ answer = .truth false ∨
          ∃ why, answer = .failed why ∧ why.isBreach = true) := by
  intro cluster source w
  have reached : Reachable source true w := (run_call .refresh _).trans (run_await 0 20 _)
  have lists : Lists cluster ["apps/v1"] :=
    @Lists.of_answers _ cluster none (some [some ["apps/v1"]]) rfl rfl
  have failed : (w.state.answerOf 0 matches some (.failed .wrongShape)) = true := by decide
  refine ⟨reached, lists.uncancelled, failed, by decide, ?_⟩
  rintro ⟨answer, told, rfl | rfl | ⟨why, rfl, breach⟩⟩
  · rw [told] at failed
    cases failed
  · rw [told] at failed
    cases failed
  · rw [told] at failed
    cases why with
    | wrongShape => cases breach
    | _ => cases failed

/-- Without a name, not even null, the same item is a failure of the survey. -/
example :
    let source := source 10 ⟨servingItem { deployments with name := .absent }, []⟩
    let w := await source 0 20 (call source .refresh (init true))
    (w.state.answerOf 0 matches some (.truth false)) ∧
      (w.state.lastError matches some (.incomplete [("apps/v1", .missingField)])) := by
  decide

end World

end ApiCatalog
