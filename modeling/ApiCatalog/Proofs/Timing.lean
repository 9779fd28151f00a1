/-
# ApiCatalog.Proofs.Timing -- surveys do not depend on when the replies come

Two clusters with the same answers (`Cluster.SameAnswers`) differ in the delays of their
replies only, so their replies come at other moments and in another order.

`timing_irrelevant`: they are surveyed to one end.  From wherever a survey of either has
got it ends, and whenever it has ended there is one outcome, one sequence of requests and
one sequence of log lines about group-versions that failed (`ComesTo`).  All three are
those of the replies: the outcome is as in `Surveyed`, the requests as in `Disciplined`,
and the lines as in `Reported`, which is a single line or none, as there are requests
that are refused or not.

That each is a function of the replies was shown for every order of completion
(`Survey.told`); what is added here is that the delays are no part of it.
-/
import ApiCatalog.Proofs.Discipline
import ApiCatalog.Report.Events

namespace ApiCatalog

set_option autoImplicit false

/-! ## What is said of group-versions that failed -/

namespace Survey

variable {τ : Type}

/-- The log line about group-versions that failed, and how many were listed. -/
def incompleteLine (failed : List String) (listed : Nat) : Report.Line where
  level := .warning
  component := "discovery.source"
  event := "discovery_groups_failed"
  fields := [("failed", .list (failed.map .text)), ("total", .whole listed)]

/-- The log line of a report. -/
def reportLine (report : TextSet × Nat) : Report.Line :=
  incompleteLine report.1.toList report.2

/-- What a survey says of group-versions that failed, by the replies of its cluster: if some were
refused, their names once each and in order, and the number of all that was listed. -/
inductive Reported (cluster : Cluster τ) : List Report.Line → Prop
  | unlisted {why : Failure} (stopped : Unlisted cluster why) : Reported cluster []
  | complete {listed : List String} (lists : Lists cluster listed)
      (served : ∀ inquiry ∈ inquiries cluster listed, ∀ why, ¬ Refuses inquiry why) :
      Reported cluster []
  | incomplete {listed failed : List String} (lists : Lists cluster listed) (nonempty : failed ≠ [])
      (sorted : failed.Pairwise (· < ·))
      (refused : ∀ groupVersion, groupVersion ∈ failed ↔
        ∃ answer why, (groupVersion, answer) ∈ inquiries cluster listed ∧
          Refuses (groupVersion, answer) why) :
      Reported cluster [incompleteLine failed listed.length]

/-- The report of a survey is as its replies have it. -/
theorem reported (cluster : Cluster τ) : Reported cluster ((report cluster).map reportLine) := by
  unfold report
  split
  · rename_i why stopped
    exact .unlisted (unlisted?_eq_some_iff.1 stopped)
  · rename_i listable
    have lists := lists_of_unlisted? listable
    simp only [closing, failures_answers]
    split
    · rename_i nothing
      refine .complete lists fun inquiry there why refused => ?_
      have failed := mem_keys_refusals_iff.2 ⟨inquiry.2, why, there, refused⟩
      rw [nothing] at failed
      cases failed
    · rename_i something
      obtain ⟨_, mem⟩ := List.exists_mem_of_ne_nil _ something
      refine .incomplete lists (List.ne_nil_of_mem (TextSet.mem_ofList.2 mem)) (TextSet.sorted _)
        fun groupVersion => ?_
      exact TextSet.mem_ofList.trans mem_keys_refusals_iff

end Survey

namespace Fetch

variable {τ σ κ : Type}

/-- The log lines of a fetch about group-versions that failed, in order. -/
def failureLines (t : Timeline τ κ (Fetch τ σ)) : List Report.Line :=
  (t.state.notes.filterMap SourceNote.line?).filter (·.event = "discovery_groups_failed")

theorem failureLines_eq (t : Timeline τ κ (Fetch τ σ)) :
    failureLines t = (reports t).map Survey.reportLine := by
  unfold failureLines reports
  induction t.state.notes with
  | nil => rfl
  | cons note rest ih =>
    cases note with
    | groupsFailed failed listed =>
      simp only [List.filterMap_cons, SourceNote.line?, SourceNote.report?, List.map_cons]
      rw [List.filter_cons_of_pos (by simp), ih]
      rfl
    | coreVersionIgnored version =>
      simp only [List.filterMap_cons, SourceNote.line?, SourceNote.report?]
      rw [List.filter_cons_of_neg (by simp), ih]
    | asked request timeout => exact ih
    | replied => exact ih

end Fetch

/-! ## Clusters that differ in timing -/

namespace Cluster

variable {τ : Type}

/-- Two clusters that give the same replies in the same order, but for the delays. -/
structure SameAnswers (c d : Cluster τ) : Prop where
  coreVersions : c.coreVersions.answer = d.coreVersions.answer
  groups : c.groups.answer = d.groups.answer
  resources : c.resources.map (fun reply => (reply.1, reply.2.answer)) =
    d.resources.map fun reply => (reply.1, reply.2.answer)

variable {c d : Cluster τ}

theorem answer_at (script : Script (Reply τ ResourceList)) (i : Nat) :
    (script.at i).answer = Script.at ⟨script.first.answer, script.rest.map Reply.answer⟩ i := by
  simp only [Script.at, ← List.map_cons, List.getElem?_map, List.length_map]
  cases (script.first :: script.rest)[min i script.rest.length]? <;> rfl

/-- The answers for the resources of a group-version, in order. -/
theorem map_answer_repliesOf (cluster : Cluster τ) (groupVersion : String) :
    (cluster.repliesOf groupVersion).map Reply.answer =
      (cluster.resources.map fun reply => (reply.1, reply.2.answer)).filterMap fun reply =>
        if reply.1 = groupVersion then some reply.2 else none := by
  rw [repliesOf, List.map_filterMap, List.filterMap_map]
  congr
  funext reply
  simp only [Function.comp_apply]
  split <;> rfl

namespace SameAnswers

variable (same : SameAnswers c d)

include same

theorem answer_resourcesOf (groupVersion : String) (earlier : Nat) :
    (c.resourcesOf groupVersion earlier).answer = (d.resourcesOf groupVersion earlier).answer := by
  have replies : (c.repliesOf groupVersion).map Reply.answer =
      (d.repliesOf groupVersion).map Reply.answer := by
    rw [map_answer_repliesOf, map_answer_repliesOf, same.resources]
  unfold resourcesOf
  cases first : c.repliesOf groupVersion with
  | nil =>
    rw [first, List.map_nil] at replies
    rw [List.map_eq_nil_iff.1 replies.symm]
  | cons reply rest =>
    cases second : d.repliesOf groupVersion with
    | nil => simp [first, second] at replies
    | cons reply' rest' =>
      rw [first, second, List.map_cons, List.map_cons] at replies
      obtain ⟨head, tail⟩ := List.cons_eq_cons.1 replies
      simp only [answer_at, head, tail]

theorem listed_eq : c.listed = d.listed := by
  simp only [listed, same.coreVersions, same.groups]

theorem unlisted?_eq : c.unlisted? = d.unlisted? := by
  simp only [unlisted?, same.coreVersions, same.groups]

theorem answers_eq : Survey.answers c = Survey.answers d := by
  have each : Survey.answerTo c d.listed = Survey.answerTo d d.listed := by
    funext i groupVersion
    simp only [Survey.answerTo, Survey.replyAt, same.answer_resourcesOf]
  rw [Survey.answers, Survey.answers, same.listed_eq, each]

theorem outcomeOf_eq : Survey.outcomeOf c = Survey.outcomeOf d := by
  simp only [Survey.outcomeOf, same.unlisted?_eq, same.listed_eq, same.answers_eq]

theorem plan_eq : Survey.plan c = Survey.plan d := by
  simp only [Survey.plan, same.coreVersions, same.groups, same.listed_eq]

theorem report_eq : Survey.report c = Survey.report d := by
  simp only [Survey.report, same.unlisted?_eq, same.listed_eq, same.answers_eq]

end SameAnswers

end Cluster

namespace Survey

variable {τ : Type} [Clock τ]

/-- From wherever a survey has got it comes to its end, and it ends with one outcome only, after one
sequence of requests, and having said one thing of what failed.  Running it is such a case. -/
structure ComesTo (timeout : τ) (cluster : Cluster τ) (outcome : Outcome)
    (requests : List Request) (lines : List Report.Line) : Prop where
  ends : ∀ t, Fetch.Reachable (source timeout ⟨cluster, []⟩) t →
    ∃ enough, ∀ fuel ≥ enough, Fetch.Ended
      (Timeline.await (Fetch.act (source timeout ⟨cluster, []⟩)) (·.outcome.isSome) fuel fuel t)
  outcome : ∀ t, Fetch.Reachable (source timeout ⟨cluster, []⟩) t → Fetch.Ended t →
    t.state.outcome = some outcome
  requests : ∀ t, Fetch.Reachable (source timeout ⟨cluster, []⟩) t → Fetch.Ended t →
    Fetch.requests t = requests.map (·, timeout)
  lines : ∀ t, Fetch.Reachable (source timeout ⟨cluster, []⟩) t → Fetch.Ended t →
    Fetch.failureLines t = lines
  runs : ∃ enough, ∀ fuel ≥ enough, Fetch.Ended (Fetch.run (source timeout ⟨cluster, []⟩) fuel) ∧
    Fetch.Reachable (source timeout ⟨cluster, []⟩) (Fetch.run (source timeout ⟨cluster, []⟩) fuel)

/-- Every survey comes to what the replies of its cluster settle. -/
theorem comesTo (timeout : τ) (cluster : Cluster τ) :
    ComesTo timeout cluster (outcomeOf cluster) (plan cluster)
      ((report cluster).map reportLine) where
  ends _ reached := reached.ends finite
  outcome _ reached ended := outcome_of_ended reached ended
  requests _ reached ended := requests_of_ended reached ended
  lines t reached ended := by rw [Fetch.failureLines_eq, reports_of_ended reached ended]
  runs := by
    have first : Fetch.Reachable (source timeout ⟨cluster, []⟩) _ := .refl
    obtain ⟨enough, ended⟩ := first.ends finite
    exact ⟨enough, fun fuel le => ⟨ended fuel le, Fetch.reachable_run _ fuel⟩⟩

/-- A survey comes to one thing only. -/
theorem ComesTo.unique {timeout : τ} {cluster : Cluster τ} {outcome outcome' : Outcome}
    {requests requests' : List Request} {lines lines' : List Report.Line}
    (first : ComesTo timeout cluster outcome requests lines)
    (second : ComesTo timeout cluster outcome' requests' lines') :
    outcome = outcome' ∧ requests = requests' ∧ lines = lines' := by
  obtain ⟨enough, runs⟩ := first.runs
  obtain ⟨ended, reached⟩ := runs enough le_rfl
  refine ⟨?_, ?_, ?_⟩
  · exact Option.some.inj ((first.outcome _ reached ended).symm.trans
      (second.outcome _ reached ended))
  · have same := (first.requests _ reached ended).symm.trans (second.requests _ reached ended)
    exact List.map_injective_iff.2 (fun _ _ pairs => (Prod.ext_iff.1 pairs).1) same
  · exact (first.lines _ reached ended).symm.trans (second.lines _ reached ended)

/-- What a survey comes to does not depend on when and in which order the replies come: two clusters
that differ only in the delays of their replies are not told apart.  What both come to is what the
replies of the first say. -/
theorem timing_irrelevant {c d : Cluster τ} (same : c.SameAnswers d) (timeout : τ) :
    ∃ outcome requests lines,
      Surveyed c outcome ∧ (∃ moment, Disciplined c requests moment) ∧ Reported c lines ∧
        ComesTo timeout c outcome requests lines ∧ ComesTo timeout d outcome requests lines := by
  refine ⟨_, _, _, surveyed c, ⟨_, disciplined c⟩, reported c, comesTo timeout c, ?_⟩
  rw [same.outcomeOf_eq, same.plan_eq, same.report_eq]
  exact comesTo timeout d

/-- A cluster with a core version without resources and three groups, of which the first two have
none to give, and the delays of its replies. -/
def outage (core groups first second third : Option Int) : Cluster Int where
  coreVersions := ⟨core, .ok (some ["v2"])⟩
  groups := ⟨groups, .ok (some [some ["batch/v1"], some ["apps/v1"], some ["storage/v1"]])⟩
  resources :=
    [("batch/v1", ⟨first, .error (.raised .timeout "timed out")⟩),
      ("apps/v1", ⟨second, .error .cancelled⟩),
      ("storage/v1", ⟨third, .ok ⟨none, some []⟩⟩)]

/-- The replies of three groups come in either order and at other times, and it makes no difference:
the two that failed are reported in the order of their names, out of four that were listed. -/
theorem timing_irrelevant_outage :
    let c := outage (some 1) none (some 4) (some 2) none
    let d := outage none (some 3) none (some 6) (some 9)
    let why : Failure :=
      .incomplete [("batch/v1", .raised .timeout "timed out"), ("apps/v1", .cancelled)]
    let requests : List Request := [.coreVersions, .groups, .groupResources "batch" "v1",
      .groupResources "apps" "v1", .groupResources "storage" "v1"]
    let line : Report.Line :=
      { level := .warning
        component := "discovery.source"
        event := "discovery_groups_failed"
        fields := [("failed", .list [.text "apps/v1", .text "batch/v1"]), ("total", .whole 4)] }
    c.SameAnswers d ∧ (Fetch.run (source 10 ⟨c, []⟩) 30).now = 5 ∧
      (Fetch.run (source 10 ⟨d, []⟩) 30).now = 12 ∧
      why.message = "unable to retrieve the complete list of server APIs: " ++
        "2 group-version(s) failed" ∧
      Surveyed c (.error why) ∧ (∃ moment, Disciplined c requests moment) ∧ Reported c [line] ∧
      ComesTo 10 c (.error why) requests [line] ∧ ComesTo 10 d (.error why) requests [line] := by
  intro c d why requests line
  have same : c.SameAnswers d := ⟨rfl, rfl, rfl⟩
  refine ⟨same, by decide, by decide, rfl, ?_⟩
  obtain ⟨outcome', requests', lines', surveyed, disciplined, reported, first, second⟩ :=
    timing_irrelevant same 10
  have comes : ComesTo 10 c (.error why) requests [line] := by
    have planned : plan c = requests := by decide
    have told : report c = [(⟨["apps/v1", "batch/v1"], by decide⟩, 4)] := by decide
    have all := comesTo 10 c
    rwa [planned, told] at all
  obtain ⟨rfl, rfl, rfl⟩ := first.unique comes
  exact ⟨surveyed, disciplined, reported, first, second⟩

end Survey

end ApiCatalog
