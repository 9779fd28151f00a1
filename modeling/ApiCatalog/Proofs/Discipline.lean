/-
# ApiCatalog.Proofs.Discipline -- which requests a survey makes, and when it ends

`Disciplined cluster requests moment` says in terms of the replies of a cluster what its
survey requests and when it ends:

* the core versions are asked for first, the groups only once these are known, and
  resources only once both are;
* then one request goes out for each thing listed that has resources to ask for
  (`Asks`), in the order in which it is listed, repeats kept, cut at the first slash
  (`Requests`);
* a listing that fails ends the survey when its reply comes; else the survey ends with
  the last reply for resources, whether or not some of them are failures.

`survey_disciplined`: so it is for every survey.  The requests go out in that order, each
with the timeout, however the replies are timed; and where time waits for whoever can
run, the survey ends at that moment.
-/
import ApiCatalog.Proofs.Moments

namespace ApiCatalog

set_option autoImplicit false

namespace Survey

variable {τ : Type}

/-- The request for the resources of a group-version. -/
inductive Requests : String → Request → Prop
  | core : Requests "v1" .coreResources
  | group {groupVersion group version : String} (cut : groupVersion = group ++ "/" ++ version)
      (first : '/' ∉ group.toList) : Requests groupVersion (.groupResources group version)

theorem request?_eq_some_iff {groupVersion : String} {request : Request} :
    request? groupVersion = some request ↔ Requests groupVersion request := by
  unfold request?
  constructor
  · intro asks
    split at asks
    · rename_i group version cut
      obtain ⟨around, first⟩ := Text.cut?_eq_some_iff.1 cut
      cases asks
      exact .group (String.toList_inj.1 (by simpa using around)) first
    · split at asks
      · rename_i core
        cases asks
        rw [core]
        exact .core
      · cases asks
  · rintro (_ | ⟨cut, first⟩)
    · decide
    · rename_i group version
      have parts : Text.cut? '/' groupVersion = some (group, version) :=
        Text.cut?_eq_some_iff.2 ⟨by simp [cut], first⟩
      rw [parts]

/-- The requests for what is listed are those for the group-versions that have resources. -/
theorem forall₂_requests (listed : List String) :
    List.Forall₂ Requests (listed.filter fun groupVersion => Asks groupVersion)
      (listed.filterMap request?) := by
  induction listed with
  | nil => exact .nil
  | cons groupVersion rest ih =>
    cases asks : request? groupVersion with
    | none =>
      have idle : ¬ Asks groupVersion := by
        rw [← isSome_request?_iff, asks]
        simp
      simpa [asks, idle] using ih
    | some request =>
      have busy : Asks groupVersion := by
        rw [← isSome_request?_iff, asks]
        rfl
      simpa [asks, busy] using ⟨request?_eq_some_iff.1 asks, ih⟩

variable [Clock τ]

/-- What a survey requests and when it ends, by the replies of its cluster. -/
inductive Disciplined (cluster : Cluster τ) : List Request → τ → Prop
  | core {why : Failure} (failed : cluster.coreVersions.answer = .error why) :
      Disciplined cluster [.coreVersions] cluster.coreVersions.span
  | groups {versions : Option (List String)} {why : Failure}
      (answered : cluster.coreVersions.answer = .ok versions)
      (failed : cluster.groups.answer = .error why) :
      Disciplined cluster [.coreVersions, .groups]
        (cluster.coreVersions.span + cluster.groups.span)
  | resources {listed : List String} {requests : List Request} (lists : Lists cluster listed)
      (each : List.Forall₂ Requests (listed.filter fun groupVersion => Asks groupVersion) requests) :
      Disciplined cluster (.coreVersions :: .groups :: requests)
        (cluster.coreVersions.span + cluster.groups.span + latest (spans cluster listed))

/-- The plan and the end of a survey are as the replies have it. -/
theorem disciplined (cluster : Cluster τ) : Disciplined cluster (plan cluster) (endOf cluster) := by
  unfold plan endOf
  cases core : cluster.coreVersions.answer with
  | error why => exact .core core
  | ok versions =>
    cases groups : cluster.groups.answer with
    | error why => exact .groups core groups
    | ok listing =>
      have listable : cluster.unlisted? = none := by simp [Cluster.unlisted?, core, groups]
      exact .resources (lists_of_unlisted? listable) (forall₂_requests _)

/-- A survey makes its requests in order and ends in time.  At each moment it has made the first of
them, each with the timeout; when it has ended it has made them all and waits for no reply; and
where time waits for whoever can run, it ends at its moment.  Running it is such a case. -/
structure Conducted (timeout : τ) (cluster : Cluster τ) (requests : List Request) (moment : τ) :
    Prop where
  inOrder : ∀ t, Fetch.Reachable (source timeout ⟨cluster, []⟩) t →
    Fetch.requests t <+: requests.map (·, timeout)
  all : ∀ t, Fetch.Reachable (source timeout ⟨cluster, []⟩) t → Fetch.Ended t →
    Fetch.requests t = requests.map (·, timeout) ∧ t.alarms = []
  inTime : ∀ t, Fetch.Punctual (source timeout ⟨cluster, []⟩) t → Fetch.Ended t → t.now = moment
  runs : ∃ enough, ∀ fuel ≥ enough,
    Fetch.Punctual (source timeout ⟨cluster, []⟩) (Fetch.run (source timeout ⟨cluster, []⟩) fuel) ∧
      Fetch.Ended (Fetch.run (source timeout ⟨cluster, []⟩) fuel)

variable [Clock.Exact τ]

theorem conducted (timeout : τ) (cluster : Cluster τ) :
    Conducted timeout cluster (plan cluster) (endOf cluster) where
  inOrder t reached := requests_isPrefix reached
  all t reached ended := by
    refine ⟨requests_of_ended reached ended, ?_⟩
    have idle : t.targets = [] := by
      by_contra waits
      exact (reached.waits_iff finite).1 waits ended
    simpa [Timeline.targets] using (List.append_eq_nil_iff.1 idle).2
  inTime t punctual ended := (timely punctual).ends ended
  runs := by
    have finite : (source timeout ⟨cluster, []⟩).Finite 0 (cost cluster.listed.length) := finite
    refine ⟨(Fetch.start (source timeout ⟨cluster, []⟩)).load (cost cluster.listed.length) + 1,
      fun fuel enough => ⟨?_, ?_⟩⟩
    · exact Fetch.Punctual.await finite _ .refl (Nat.le_of_lt enough)
    · obtain ⟨outcome, ended, -⟩ := (Fetch.underway_start _).await_ends finite enough
      exact Option.ne_none_iff_exists'.2 ⟨outcome, ended⟩

/-- Every survey makes its requests in the order of the listing, all of them whichever replies fail,
and ends with the last reply that it waits for. -/
theorem survey_disciplined (timeout : τ) (cluster : Cluster τ) : ∃ requests moment,
    Disciplined cluster requests moment ∧ Conducted timeout cluster requests moment :=
  ⟨_, _, disciplined cluster, conducted timeout cluster⟩

/-- A cluster with two groups, of which the first has no resources to give, and the delays of its
replies. -/
def twoGroups (core groups first second : Option Int) : Cluster Int where
  coreVersions := ⟨core, .ok (some [])⟩
  groups := ⟨groups, .ok (some [some ["apps/v1"], some ["batch/v1"]])⟩
  resources :=
    [("apps/v1", ⟨first, .error (.raised .timeout "timed out")⟩),
      ("batch/v1", ⟨second, .ok ⟨none, some []⟩⟩)]

/-- Of two groups one fails after four units and the other answers after two: the survey has asked
both, and ends after the slower one. -/
theorem survey_disciplined_twoGroups :
    (∃ requests moment,
      Disciplined (twoGroups (some 1) none (some 4) (some 2)) requests moment ∧
        Conducted 10 (twoGroups (some 1) none (some 4) (some 2)) requests moment) ∧
    (Fetch.run (source 10 ⟨twoGroups (some 1) none (some 4) (some 2), []⟩) 20).now = 5 ∧
    Fetch.requests (Fetch.run (source 10 ⟨twoGroups (some 1) none (some 4) (some 2), []⟩) 20) =
      [(.coreVersions, 10), (.groups, 10), (.groupResources "apps" "v1", 10),
        (.groupResources "batch" "v1", 10)] :=
  ⟨survey_disciplined _ _, by decide, by decide⟩

end Survey

end ApiCatalog
