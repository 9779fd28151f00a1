/-
# ApiCatalog.Proofs.Requests -- the requests and the reports of a survey

The replies of a cluster settle which requests its survey makes (`Survey.plan`) and
what it reports when it ends (`Survey.report`).

At every moment the requests that were made, followed by those that whoever is in line
will make, are the planned ones in their order (`Told.promised`): a turn that makes a
request takes it from the line, and all others leave both alone.  The report comes with
the outcome, and not before (`Told.reports`).  Neither is touched by an alarm, so both
hold in whichever order the replies come (`told`).
-/
import ApiCatalog.Proofs.AllOrNothing
import ApiCatalog.Proofs.Completion
import ApiCatalog.Proofs.Runs

namespace ApiCatalog

set_option autoImplicit false

/-! ## What a fetch has noted -/

namespace SourceNote

variable {τ : Type}

/-- The request that goes out, and its timeout. -/
def request? : SourceNote τ → Option (Request × τ)
  | .asked request timeout => some (request, timeout)
  | _ => none

/-- The report that some group-versions failed: which, and how many were listed. -/
def report? : SourceNote τ → Option (TextSet × Nat)
  | .groupsFailed failed listed => some (failed, listed)
  | _ => none

end SourceNote

namespace Fetch

variable {τ σ κ : Type}

/-- The requests that a fetch has made, in order, with their timeouts. -/
def requests (t : Timeline τ κ (Fetch τ σ)) : List (Request × τ) :=
  t.state.notes.filterMap SourceNote.request?

/-- The reports that a fetch has made, in order. -/
def reports (t : Timeline τ κ (Fetch τ σ)) : List (TextSet × Nat) :=
  t.state.notes.filterMap SourceNote.report?

variable [Clock τ]

theorem absorb_eq (p : Progress τ σ κ) (t : Timeline τ κ (Fetch τ σ)) :
    absorb p t =
      { now := t.now
        ready := t.ready ++ p.turns.map fun turn => ⟨turn.1, turn.2⟩
        alarms := t.alarms ++ p.delays.map fun delay => ⟨t.now + delay.1, delay.2⟩
        state :=
          { work := p.work, notes := t.state.notes ++ p.notes, outcome := p.outcome } } := by
  rw [absorb, Timeline.follow_eq]
  rfl

end Fetch

/-! ## What the replies settle -/

namespace Survey

variable {τ : Type}

/-- The requests of a survey, in order: those for the lists up to the first that fails, and then
one for each thing listed that has resources to ask for. -/
def plan (cluster : Cluster τ) : List Request :=
  match cluster.coreVersions.answer, cluster.groups.answer with
  | .error _, _ => [.coreVersions]
  | .ok _, .error _ => [.coreVersions, .groups]
  | .ok _, .ok _ => .coreVersions :: .groups :: cluster.listed.filterMap request?

/-- What a survey reports when it ends. -/
def report (cluster : Cluster τ) : List (TextSet × Nat) :=
  match cluster.unlisted? with
  | some _ => []
  | none =>
    (closing cluster.listed (answers cluster) : List (SourceNote τ)).filterMap SourceNote.report?

/-- The request that a call will make. -/
def Token.request? (listed : List String) : Token → Option Request
  | .begin i => listed[i]?.bind Survey.request?
  | _ => none

/-- The requests that are still to be made: at first what the plan has left, and once it is known
what is listed, those of the calls in line. -/
def Stage.yet (cluster : Cluster τ) (line : List Token) : Stage → List Request
  | .core => (plan cluster).drop 1
  | .groups _ => (plan cluster).drop 2
  | .resources listed _ => line.filterMap (Token.request? listed)

/-- What a call does to the requests: those that it makes, and those that are to be made once it
has put its calls at the end of the line.  With the outcome nothing is left to be requested. -/
structure Asking (timeout : τ) (cluster : Cluster τ) (line : List Token) (expected : List Request)
    (p : Progress τ (Work τ) Token) : Prop where
  made : p.notes.filterMap SourceNote.request? ++
      (p.work.stage.yet cluster (line ++ p.turns.map Prod.fst)).map (·, timeout) =
    expected.map (·, timeout)
  direct : ∀ turn ∈ p.turns, ∀ i, turn.1 = .begin i → turn.2 = 0
  undelayed : ∀ delay ∈ p.delays, ∀ i, delay.2 ≠ .begin i
  ends : p.outcome ≠ none → p.work.stage.yet cluster [] = []

/-- The report comes with the outcome. -/
def Reporting (cluster : Cluster τ) (p : Progress τ (Work τ) Token) : Prop :=
  p.notes.filterMap SourceNote.report? = if p.outcome.isSome then report cluster else []

variable {cluster : Cluster τ} {timeout : τ} {core listed : List String} {slots : List Slot}
  {line : List Token} {expected : List Request}

@[simp] theorem requests_closing (listed : List String) (answers : List Answer) :
    (closing listed answers : List (SourceNote τ)).filterMap SourceNote.request? = [] := by
  unfold closing
  dsimp only
  split <;> simp [SourceNote.request?]

/-! ### Requests -/

/-- The calls that begin the requests for what is listed make them in its order. -/
theorem filterMap_begins (listed : List String) :
    ((List.range listed.length).map Token.begin).filterMap (Token.request? listed) =
      listed.filterMap request? := by
  have places : (List.range listed.length).map (listed[·]?) = listed.map some := by
    apply List.ext_getElem
    · simp
    · simp
  calc ((List.range listed.length).map Token.begin).filterMap (Token.request? listed)
    _ = ((List.range listed.length).map (listed[·]?)).filterMap (·.bind request?) := by
      rw [List.filterMap_map, List.filterMap_map]
      rfl
    _ = listed.filterMap request? := by
      rw [places, List.filterMap_map]
      rfl

@[simp] theorem stage_settleAt :
    (settleAt cluster listed slots).work.stage = .resources listed slots := by
  unfold settleAt
  split <;> rfl

@[simp] theorem requests_settleAt :
    (settleAt cluster listed slots).notes.filterMap SourceNote.request? = [] := by
  unfold settleAt
  split
  · rfl
  · exact requests_closing _ _

theorem asking_onGroups (sound : (Stage.groups core).Sound cluster) :
    Asking timeout cluster [] ((plan cluster).drop 2) (onGroups cluster core) := by
  obtain ⟨versions, answered, rfl⟩ := sound
  unfold onGroups
  split
  · rename_i why failed
    exact ⟨by simp [Stage.yet, SourceNote.request?], by simp, by simp,
      fun _ => by simp [Stage.yet, plan, answered, failed]⟩
  · rename_i groups listing
    have all : versions.getD [] ++ Cluster.versionsOf groups = cluster.listed := by
      simp [Cluster.listed, answered, listing, Except.toOption]
    have rest : (plan cluster).drop 2 = cluster.listed.filterMap request? := by
      simp [plan, answered, listing]
    rw [all, rest, ← filterMap_begins]
    constructor
    · simp only [List.filterMap_cons, SourceNote.request?, requests_settleAt, stage_settleAt,
        Stage.yet, List.nil_append, List.map_map]
      rfl
    · simp
    · simp
    · simp [Stage.yet]

/-- A request goes out, and what its reply leads to makes the rest, now or later. -/
theorem asking_ask {α : Type} {work : Work τ} {request : Request} {reply : Reply τ α}
    {token : Token} {onReply : Progress τ (Work τ) Token} (late : ∀ i, token ≠ .begin i)
    (later : work.stage.yet cluster line = expected)
    (asking : Asking timeout cluster line expected onReply) :
    Asking timeout cluster line (request :: expected)
      (ask work timeout request reply token onReply) := by
  unfold ask
  split
  · exact ⟨by simp [SourceNote.request?, later], by simp, by simpa using late, nofun⟩
  · refine ⟨?_, asking.direct, asking.undelayed, asking.ends⟩
    have made := asking.made
    simp only [List.filterMap_cons, SourceNote.request?, List.map_cons, List.cons_append]
    rw [made]

/-- What is noted besides requests is no matter. -/
theorem Asking.congr {p q : Progress τ (Work τ) Token}
    (asking : Asking timeout cluster line expected p) (work : q.work = p.work)
    (turns : q.turns = p.turns) (delays : q.delays = p.delays) (outcome : q.outcome = p.outcome)
    (same : q.notes.filterMap SourceNote.request? = p.notes.filterMap SourceNote.request?) :
    Asking timeout cluster line expected q where
  made := by
    rw [same, work, turns]
    exact asking.made
  direct := turns ▸ asking.direct
  undelayed := delays ▸ asking.undelayed
  ends := by
    rw [outcome, work]
    exact asking.ends

theorem asking_onCore : Asking timeout cluster [] ((plan cluster).drop 1)
    (onCore timeout cluster) := by
  unfold onCore
  split
  · rename_i why failed
    exact ⟨by simp [Stage.yet, SourceNote.request?], by simp, by simp,
      fun _ => by simp [Stage.yet, plan, failed]⟩
  · rename_i versions answered
    have sound : (Stage.groups (versions.getD [])).Sound cluster := ⟨versions, answered, rfl⟩
    have next : (plan cluster).drop 1 = .groups :: (plan cluster).drop 2 := by
      unfold plan
      rw [answered]
      cases cluster.groups.answer <;> rfl
    rw [next]
    have asks : Asking timeout cluster [] (.groups :: (plan cluster).drop 2)
        (ask ⟨cluster, .groups (versions.getD [])⟩ timeout .groups cluster.groups .groupsReply
          (onGroups cluster (versions.getD []))) := asking_ask nofun rfl (asking_onGroups sound)
    exact asks.congr rfl rfl rfl rfl rfl

theorem asking_start (timeout : τ) (cluster : Cluster τ) :
    Asking timeout cluster [] (plan cluster) ((source timeout ⟨cluster, []⟩).start 0) := by
  have next : plan cluster = .coreVersions :: (plan cluster).drop 1 := by
    unfold plan
    cases cluster.coreVersions.answer with
    | error why => rfl
    | ok versions => cases cluster.groups.answer <;> rfl
  rw [next]
  exact asking_ask nofun rfl asking_onCore

/-- An answer makes no request. -/
theorem asking_answerAt (i : Nat) (answer : Answer) : Asking timeout cluster line
    (line.filterMap (Token.request? listed)) (answerAt cluster listed slots i answer) := by
  constructor
  · simp [answerAt, Stage.yet, Token.request?]
  · simp [answerAt]
  · simp [answerAt]
  · simp [answerAt]

/-- The call that begins a request makes it. -/
theorem asking_beginAt (i : Nat) (groupVersion : String) : Asking timeout cluster line
    ((request? groupVersion).toList ++ line.filterMap (Token.request? listed))
    (beginAt timeout cluster listed slots i groupVersion) := by
  unfold beginAt
  split
  · rename_i nothing
    rw [nothing]
    exact (asking_answerAt i (.ok none)).congr rfl rfl rfl rfl rfl
  · rename_i request asks
    rw [asks]
    apply asking_ask
    · simp
    · rfl
    · exact (asking_answerAt i _).congr rfl rfl rfl rfl rfl

/-- Only a call that begins a request is expected to make one. -/
theorem Stage.yet_cons (stage : Stage) {token : Token} (later : ∀ i, token ≠ .begin i) :
    stage.yet cluster (token :: line) = stage.yet cluster line := by
  cases stage with
  | resources listed slots =>
    cases token with
    | begin i => exact absurd rfl (later i)
    | _ => rfl
  | _ => rfl

theorem Stage.yet_concat (stage : Stage) {token : Token} (later : ∀ i, token ≠ .begin i) :
    stage.yet cluster (line ++ [token]) = stage.yet cluster line := by
  cases stage with
  | resources listed slots =>
    cases token with
    | begin i => exact absurd rfl (later i)
    | _ => simp [Stage.yet, Token.request?]
  | _ => rfl

/-- The next call makes the request that was expected of it, and leaves the others to be made. -/
theorem asking_resume {work : Work τ} (own : work.cluster = cluster)
    (sound : work.stage.Sound cluster) {token : Token} {rest alarmed : List Token}
    (next : (token :: (rest ++ alarmed)).Perm work.stage.tokens) :
    Asking timeout cluster rest (work.stage.yet cluster (token :: rest))
      (resume timeout work token) := by
  obtain ⟨_, stage⟩ := work
  subst own
  rename_i cluster
  cases stage with
  | core =>
    obtain ⟨rfl, alone⟩ := List.cons_eq_cons.1 (List.perm_singleton.1 next)
    obtain ⟨rfl, -⟩ := List.append_eq_nil_iff.1 alone
    exact asking_onCore
  | groups core =>
    obtain ⟨rfl, alone⟩ := List.cons_eq_cons.1 (List.perm_singleton.1 next)
    obtain ⟨rfl, -⟩ := List.append_eq_nil_iff.1 alone
    exact asking_onGroups sound
  | resources listed slots =>
    obtain ⟨i, slot, there, mine⟩ := mem_tokensFrom.1 (next.mem_iff.1 List.mem_cons_self)
    obtain ⟨groupVersion, listed_there⟩ := sound.exists_listed there
    rw [Nat.zero_add] at mine
    cases slot with
    | noticed answer => cases mine
    | waiting =>
      cases mine
      have expected : (Stage.resources listed slots).yet cluster (.begin i :: rest) =
          (request? groupVersion).toList ++ rest.filterMap (Token.request? listed) := by
        cases asks : request? groupVersion <;>
          simp [Stage.yet, Token.request?, listed_there, asks]
      simp only [resume, listed_there, there]
      rw [expected]
      exact asking_beginAt i groupVersion
    | asked =>
      cases mine
      simp only [resume, listed_there, there]
      exact (asking_answerAt i _).congr rfl rfl rfl rfl rfl
    | answered answer =>
      cases mine
      simp only [resume, there]
      refine ⟨?_, by simp, by simp, by simp [Stage.yet]⟩
      rw [requests_settleAt, stage_settleAt, turns_settleAt, List.nil_append, List.map_nil,
        List.append_nil]
      rfl

/-! ### Reports -/

theorem reporting_settleAt (sound : (Stage.resources listed slots).Sound cluster) :
    Reporting cluster (settleAt cluster listed slots) := by
  unfold settleAt
  split
  · rfl
  · rename_i taken all
    rw [noticed?_eq_some_iff.1 all] at sound
    simp [Reporting, report, sound.1, sound.taken, sound.2.1]

/-- What is noted besides reports is no matter. -/
theorem Reporting.congr {p q : Progress τ (Work τ) Token} (reporting : Reporting cluster p)
    (outcome : q.outcome = p.outcome)
    (same : q.notes.filterMap SourceNote.report? = p.notes.filterMap SourceNote.report?) :
    Reporting cluster q := by
  unfold Reporting
  rw [same, outcome]
  exact reporting

theorem reporting_ask {α : Type} {work : Work τ} {request : Request} {reply : Reply τ α}
    {token : Token} {onReply : Progress τ (Work τ) Token} (reporting : Reporting cluster onReply) :
    Reporting cluster (ask work timeout request reply token onReply) := by
  unfold ask
  split
  · rfl
  · exact reporting.congr rfl rfl

theorem reporting_onGroups (sound : (Stage.groups core).Sound cluster) :
    Reporting cluster (onGroups cluster core) := by
  have known := sound
  obtain ⟨versions, answered, rfl⟩ := sound
  unfold onGroups
  split
  · rename_i why failed
    simp [Reporting, report, Cluster.unlisted?, answered, failed, SourceNote.report?]
  · rename_i groups listing
    have lists : cluster.unlisted? = none := by simp [Cluster.unlisted?, answered, listing]
    have all : versions.getD [] ++ Cluster.versionsOf groups = cluster.listed := by
      simp [Cluster.listed, answered, listing, Except.toOption]
    exact reporting_settleAt (sound_waiting lists all)

theorem reporting_onCore : Reporting cluster (onCore timeout cluster) := by
  unfold onCore
  split
  · rename_i why failed
    simp [Reporting, report, Cluster.unlisted?, failed, SourceNote.report?]
  · rename_i versions answered
    have sound : (Stage.groups (versions.getD [])).Sound cluster := ⟨versions, answered, rfl⟩
    have asks : Reporting cluster
        (ask ⟨cluster, .groups (versions.getD [])⟩ timeout .groups cluster.groups .groupsReply
          (onGroups cluster (versions.getD []))) := reporting_ask (reporting_onGroups sound)
    exact asks.congr rfl rfl

theorem reporting_start (timeout : τ) (cluster : Cluster τ) :
    Reporting cluster ((source timeout ⟨cluster, []⟩).start 0) := reporting_ask reporting_onCore

theorem reporting_beginAt (i : Nat) (groupVersion : String) :
    Reporting cluster (beginAt timeout cluster listed slots i groupVersion) := by
  unfold beginAt
  split
  · rfl
  · exact reporting_ask rfl

/-- A call reports what there is to report when it brings the outcome, and else nothing. -/
theorem reporting_resume {work : Work τ} (own : work.cluster = cluster)
    (sound : work.stage.Sound cluster) (token : Token) :
    Reporting cluster (resume timeout work token) := by
  obtain ⟨_, stage⟩ := work
  subst own
  rename_i cluster
  cases stage with
  | core =>
    cases token with
    | coreReply => exact reporting_onCore
    | _ => rfl
  | groups core =>
    cases token with
    | groupsReply => exact reporting_onGroups sound
    | _ => rfl
  | resources listed slots =>
    cases token with
    | begin i =>
      simp only [resume]
      split
      · exact reporting_beginAt i _
      · rfl
    | reply i =>
      simp only [resume]
      split <;> rfl
    | notice i =>
      simp only [resume]
      split
      · rename_i answer answered
        obtain ⟨groupVersion, there⟩ := sound.exists_listed answered
        have right : answer = answerTo cluster listed i groupVersion :=
          sound.2.2.2 i groupVersion (.answered answer) there answered
        exact reporting_settleAt (sound.set there right)
      · rfl
    | _ => rfl

/-! ## Every order of completion -/

variable [Clock τ] {t u : Timeline τ Token (Fetch τ (Work τ))}

/-- A survey of its cluster that knows what is right, and waits for the calls of its stage. -/
structure Standing (cluster : Cluster τ) (t : Timeline τ Token (Fetch τ (Work τ))) : Prop where
  own : t.state.work.cluster = cluster
  stage : t.state.work.stage.Sound cluster
  outcome : ∀ o, t.state.outcome = some o → o = outcomeOf cluster
  waits : ¬ Fetch.Ended t → t.targets.Perm t.state.work.stage.tokens

theorem standing (reached : Fetch.Reachable (source timeout ⟨cluster, []⟩) t) :
    Standing cluster t := by
  obtain ⟨p, owed, underway, same, work, outcome⟩ := reached.underway finite
  have keeps := keeps_of_course underway.course
  rw [Script.at_alone] at keeps
  refine ⟨work ▸ keeps.own, work ▸ keeps.stage, outcome ▸ keeps.outcome, fun unended => ?_⟩
  rw [Fetch.Ended, not_not, outcome] at unended
  exact work ▸ same.trans ((owes_of_underway underway).waits unended)

/-- What has been requested and reported so far. -/
structure Told (timeout : τ) (cluster : Cluster τ) (t : Timeline τ Token (Fetch τ (Work τ))) :
    Prop where
  promised : Fetch.requests t ++
      (t.state.work.stage.yet cluster (t.ready.map Turn.target)).map (·, timeout) =
    (plan cluster).map (·, timeout)
  direct : ∀ turn ∈ t.ready, ∀ i, turn.target = .begin i → turn.relays = 0
  undelayed : ∀ alarm ∈ t.alarms, ∀ i, alarm.target ≠ .begin i
  ends : Fetch.Ended t → t.state.work.stage.yet cluster [] = []
  reports : Fetch.reports t = if t.state.outcome.isSome then report cluster else []

theorem told_absorb {p : Progress τ (Work τ) Token}
    (before : Fetch.requests t ++ expected.map (·, timeout) = (plan cluster).map (·, timeout))
    (direct : ∀ turn ∈ t.ready, ∀ i, turn.target = .begin i → turn.relays = 0)
    (undelayed : ∀ alarm ∈ t.alarms, ∀ i, alarm.target ≠ .begin i)
    (silent : Fetch.reports t = [])
    (asking : Asking timeout cluster (t.ready.map Turn.target) expected p)
    (reporting : Reporting cluster p) : Told timeout cluster (Fetch.absorb p t) := by
  rw [Fetch.absorb_eq]
  constructor
  · have made := asking.made
    simp only [Fetch.requests, List.filterMap_append, List.map_append, List.map_map,
      List.append_assoc] at before made ⊢
    rw [← before, ← made]
    rfl
  · intro turn mem i is
    rcases List.mem_append.1 mem with old | new
    · exact direct turn old i is
    · obtain ⟨asked, there, rfl⟩ := List.mem_map.1 new
      exact asking.direct asked there i is
  · intro alarm mem
    rcases List.mem_append.1 mem with old | new
    · exact undelayed alarm old
    · obtain ⟨delay, there, rfl⟩ := List.mem_map.1 new
      exact asking.undelayed delay there
  · exact asking.ends
  · simp only [Fetch.reports, List.filterMap_append] at silent ⊢
    rw [silent, List.nil_append]
    exact reporting

/-- An alarm that goes off changes nothing of what is told. -/
theorem Told.ring (told : Told timeout cluster t) {alarm : Alarm τ Token}
    {others : List (Alarm τ Token)} (set : t.alarms.Perm (alarm :: others)) :
    Told timeout cluster (t.ring alarm others) := by
  have later := told.undelayed alarm (set.mem_iff.2 List.mem_cons_self)
  constructor
  · simp only [Fetch.requests, Timeline.ring_state, Timeline.ring_ready, List.map_append,
      List.map_cons, List.map_nil]
    rw [Stage.yet_concat _ later]
    exact told.promised
  · intro turn mem i is
    rw [Timeline.ring_ready] at mem
    rcases List.mem_append.1 mem with old | new
    · exact told.direct turn old i is
    · cases List.mem_singleton.1 new
      rfl
  · intro other mem
    rw [Timeline.ring_alarms] at mem
    exact told.undelayed other (set.mem_iff.2 (List.mem_cons_of_mem _ mem))
  · simpa [Fetch.Ended] using told.ends
  · simpa [Fetch.reports] using told.reports

omit [Clock τ] in
/-- A turn that goes to the end of the line once more makes no request. -/
theorem Told.relay (told : Told timeout cluster t) {token : Token} {relays : Nat}
    {rest : List (Turn Token)} (line : t.ready = ⟨token, relays + 1⟩ :: rest) :
    Told timeout cluster (Timeline.wake token relays { t with ready := rest }) := by
  have later : ∀ i, token ≠ .begin i := fun i is =>
    absurd (told.direct _ (line ▸ List.mem_cons_self) i is) (Nat.succ_ne_zero relays)
  refine ⟨?_, ?_, told.undelayed, told.ends, told.reports⟩
  · have promised := told.promised
    simp only [line, List.map_cons, Stage.yet_cons _ later] at promised
    simp only [Timeline.wake, List.map_append, List.map_cons, List.map_nil,
      Stage.yet_concat _ later]
    exact promised
  · intro turn mem i is
    rcases List.mem_append.1 mem with old | new
    · exact told.direct turn (line ▸ List.mem_cons_of_mem _ old) i is
    · cases List.mem_singleton.1 new
      exact absurd is (later i)

/-- In whichever order the replies come, the requests are made as planned, and what there is to
report is reported with the outcome. -/
theorem told (reached : Fetch.Reachable (source timeout ⟨cluster, []⟩) t) :
    Told timeout cluster t := by
  unfold Fetch.Reachable at reached
  induction reached with
  | refl => exact told_absorb rfl nofun nofun rfl (asking_start timeout cluster) (reporting_start ..)
  | @tail t u before last ih =>
    cases last with
    | ring set => exact ih.ring set
    | @turn turn rest line =>
      obtain ⟨token, relays⟩ := turn
      cases relays with
      | succ relays => exact ih.relay line
      | zero =>
        have standing : Standing cluster t := standing before
        have unended : ¬ Fetch.Ended t := by
          rw [← Fetch.Reachable.waits_iff finite before]
          simp [Timeline.targets, line]
        have silent : Fetch.reports t = [] := by
          rw [Fetch.Ended, not_not] at unended
          simp [ih.reports, unended]
        have waits := standing.waits unended
        have promised := ih.promised
        simp only [Timeline.targets, line, List.map_cons, List.cons_append] at waits promised
        exact told_absorb promised
          (fun turn mem => ih.direct turn (line ▸ List.mem_cons_of_mem _ mem)) ih.undelayed silent
          (asking_resume standing.own standing.stage waits)
          (reporting_resume standing.own standing.stage token)

/-- The requests that were made are the first of those that are planned. -/
theorem requests_isPrefix (reached : Fetch.Reachable (source timeout ⟨cluster, []⟩) t) :
    Fetch.requests t <+: (plan cluster).map (·, timeout) :=
  ⟨_, (told reached).promised⟩

/-- Once a survey has ended, all planned requests were made. -/
theorem requests_of_ended (reached : Fetch.Reachable (source timeout ⟨cluster, []⟩) t)
    (ended : Fetch.Ended t) : Fetch.requests t = (plan cluster).map (·, timeout) := by
  have told := told reached
  have idle : t.targets = [] := by
    by_contra waits
    exact (reached.waits_iff finite).1 waits ended
  have line : t.ready = [] := by simp_all [Timeline.targets]
  have promised := told.promised
  rwa [line, List.map_nil, told.ends ended, List.map_nil, List.append_nil] at promised

theorem reports_of_ended (reached : Fetch.Reachable (source timeout ⟨cluster, []⟩) t)
    (ended : Fetch.Ended t) : Fetch.reports t = report cluster := by
  rw [(told reached).reports, if_pos (Option.isSome_iff_ne_none.2 ended)]

theorem outcome_of_ended (reached : Fetch.Reachable (source timeout ⟨cluster, []⟩) t)
    (ended : Fetch.Ended t) : t.state.outcome = some (outcomeOf cluster) := by
  obtain ⟨o, is⟩ := Option.ne_none_iff_exists'.1 ended
  rw [is, (standing reached).outcome o is]

end Survey

end ApiCatalog
