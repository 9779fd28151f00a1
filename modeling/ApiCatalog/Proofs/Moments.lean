/-
# ApiCatalog.Proofs.Moments -- when a survey comes to what

Where time waits for whoever can run (`Fetch.Punctual`) and is exact, each call of a
survey has its moment: that at which the requests of its stage went out (`Stage.base`)
and the time that its reply takes (`wait`) after it.

`Timely` is kept by every step.  Time has come to the base or to the moment of some
reply, and no further than that; whoever is in line has reached its moment, and so has
every request that the survey has taken notice of.  While a request is still to go out
no time has passed since the base, for its turn stands in line.  So when all are
noticed it is the moment of the last reply (`Timely.ended`).
-/
import ApiCatalog.Proofs.Clocks
import ApiCatalog.Proofs.Requests

namespace ApiCatalog

set_option autoImplicit false

/-- The time that something takes, given its delay: none if it has none, or one below zero. -/
def wait {τ : Type} [Clock τ] : Option τ → τ
  | none => 0
  | some delay => later 0 delay

/-- The time that a reply takes. -/
def Reply.span {τ α : Type} [Clock τ] (reply : Reply τ α) : τ := wait reply.delay

/-- The latest of some moments, none of which is before zero. -/
def latest {τ : Type} [Clock τ] (moments : List τ) : τ := moments.foldr later 0

namespace Fetch

variable {τ σ κ : Type} [Clock τ]

/-- What the first fetch can come to if time waits for whoever can run. -/
def Punctual (source : Source τ σ κ) (t : Timeline τ κ (Fetch τ σ)) : Prop :=
  Relation.ReflTransGen (fun t u => Step source t u ∧ t.Prompt u) (start source) t

variable {source : Source τ σ κ} {t : Timeline τ κ (Fetch τ σ)}

theorem Punctual.reachable (punctual : Punctual source t) : Reachable source t :=
  Relation.ReflTransGen.mono (fun _ _ step => step.1) _ _ punctual

/-! ### Running a fetch is punctual -/

/-- No time passes while a call is served. -/
theorem now_act (token : κ) (t : Timeline τ κ (Fetch τ σ)) :
    (act source token t).now = t.now := by
  simp [act, absorb_eq]

theorem promptly_settle (fuel : Nat) (t : Timeline τ κ (Fetch τ σ)) :
    Relation.ReflTransGen (fun t u => Step source t u ∧ t.Prompt u) t
      (Timeline.settle (act source) fuel t) :=
  Timeline.chain_settle (fun _ _ _ line => ⟨.turn line, .inl (Timeline.now_runTurn now_act _ _)⟩)
    (fun _ _ others taken due =>
      ⟨.ring (Timeline.perm_of_takeEarliest taken), Timeline.prompt_ring_of_due due others⟩) fuel t

/-- With fuel to empty the line before each alarm, waiting is punctual. -/
theorem Punctual.await [Clock.Exact τ] {cost : κ → Nat} (finite : source.Finite 0 cost)
    (done : Fetch τ σ → Bool) {fuel rounds : Nat} (punctual : Punctual source t)
    (enough : t.load cost ≤ fuel) :
    Punctual source (Timeline.await (act source) done fuel rounds t) := by
  refine punctual.trans <| Timeline.chain_await
    (P := fun t => Underway source t ∧ t.load cost ≤ fuel)
    (fun t _ => promptly_settle fuel t) ?_ rounds ⟨punctual.reachable.underway finite, enough⟩
  rintro t alarm others ⟨underway, enough⟩ - taken
  obtain ⟨underway', lighter, line⟩ := (drains finite).settle underway enough
  obtain ⟨again, less⟩ := (drains finite).alarm underway' taken
  exact ⟨⟨.ring (Timeline.perm_of_takeEarliest taken), Timeline.prompt_ring taken line⟩, again,
    by omega⟩

end Fetch

namespace Clock.Exact

variable {τ : Type} [Clock τ] [Exact τ]

theorem not_wait_lt_zero (delay : Option τ) : ¬ wait delay < 0 := by
  cases delay with
  | none => exact lt_irrefl 0
  | some delay => exact not_later_lt_left 0 delay

theorem not_add_lt {span : τ} (base : τ) (h : ¬ span < 0) : ¬ base + span < base := by
  have := mt (add_lt_add_iff_left base).1 h
  rwa [add_zero] at this

/-- What is due after a delay comes when it has taken its time. -/
theorem add_wait (base delay : τ) : base + wait (some delay) = later base (base + delay) := by
  rw [wait, add_later, add_zero]

theorem not_latest_lt_zero (moments : List τ) : ¬ latest moments < 0 := by
  induction moments with
  | nil => exact lt_irrefl 0
  | cons first rest ih => exact not_lt_trans ih (not_later_lt_right _ _)

theorem not_latest_lt {moments : List τ} {moment : τ} (mem : moment ∈ moments) :
    ¬ latest moments < moment := by
  induction moments with
  | nil => cases mem
  | cons first rest ih =>
    rcases List.mem_cons.1 mem with rfl | mem
    · exact not_later_lt_left _ _
    · exact not_lt_trans (ih mem) (not_later_lt_right _ _)

omit [Exact τ] in
theorem latest_mem (moments : List τ) : latest moments = 0 ∨ latest moments ∈ moments := by
  induction moments with
  | nil => exact .inl rfl
  | cons first rest ih =>
    simp only [latest, List.foldr_cons, later] at ih ⊢
    split
    · exact ih.imp_right (List.mem_cons_of_mem first)
    · exact .inr List.mem_cons_self

/-- What is not before a base and not before any of some moments after it, and is the base or one of
them, is the latest. -/
theorem eq_add_latest {base moment : τ} {moments : List τ} (after : ¬ moment < base)
    (each : ∀ m ∈ moments, ¬ moment < base + m)
    (is : moment = base ∨ ∃ m ∈ moments, moment = base + m) : moment = base + latest moments := by
  apply eq_of_not_lt
  · rcases latest_mem moments with none | mem
    · rwa [none, add_zero]
    · exact each _ mem
  · rcases is with rfl | ⟨m, mem, rfl⟩
    · exact not_add_lt moment (not_latest_lt_zero moments)
    · exact mt (add_lt_add_iff_left base).1 (not_latest_lt mem)

end Clock.Exact

namespace Survey

variable {τ : Type} [Clock τ]

/-- When the requests of a stage went out. -/
def Stage.base (cluster : Cluster τ) : Stage → τ
  | .core => 0
  | .groups _ => cluster.coreVersions.span
  | .resources _ _ => cluster.coreVersions.span + cluster.groups.span

/-- The delay of the reply to a request for the resources at a place of what is listed. -/
def delayAt? (cluster : Cluster τ) (listed : List String) (i : Nat) : Option τ :=
  listed[i]?.bind fun groupVersion =>
    (request? groupVersion).bind fun _ => (replyAt cluster listed i groupVersion).delay

/-- The delay of the reply that a call follows, once it is known what is listed. -/
def Token.delay? (cluster : Cluster τ) (listed : List String) : Token → Option τ
  | .reply i | .notice i => delayAt? cluster listed i
  | _ => none

/-- The delay of the reply that a call follows. -/
def Stage.delay? (cluster : Cluster τ) (token : Token) : Stage → Option τ
  | .core => if token = .coreReply then cluster.coreVersions.delay else none
  | .groups _ => if token = .groupsReply then cluster.groups.delay else none
  | .resources listed _ => token.delay? cluster listed

/-- The moment of a call. -/
def Stage.moment (cluster : Cluster τ) (stage : Stage) (token : Token) : τ :=
  stage.base cluster + wait (stage.delay? cluster token)

/-- The times that the replies for the resources of what is listed take. -/
def spans (cluster : Cluster τ) (listed : List String) : List τ :=
  ((listed.mapIdx fun i groupVersion =>
      (groupVersion, (replyAt cluster listed i groupVersion).span)).filter fun reply =>
    Asks reply.1).map Prod.snd

/-- When a survey ends. -/
def endOf (cluster : Cluster τ) : τ :=
  match cluster.coreVersions.answer, cluster.groups.answer with
  | .error _, _ => cluster.coreVersions.span
  | .ok _, .error _ => cluster.coreVersions.span + cluster.groups.span
  | .ok _, .ok _ =>
    cluster.coreVersions.span + cluster.groups.span + latest (spans cluster cluster.listed)

/-- The request at a place of a stage. -/
def Stage.slot? : Stage → Nat → Option Slot
  | .resources _ slots, i => slots[i]?
  | _, _ => none

/-- Time stands right for a stage: it has come to the base or to the moment of some reply, and has
reached the moments of all that was taken notice of. -/
structure Stage.At (cluster : Cluster τ) (stage : Stage) (now : τ) : Prop where
  settled : ∀ i answer, stage.slot? i = some (.noticed answer) →
    ¬ now < stage.moment cluster (.notice i)
  reached : now = stage.base cluster ∨
    ∃ token, (stage.delay? cluster token).isSome ∧ now = stage.moment cluster token

/-- What a call asks for, it asks for at the right time. -/
structure Paced (cluster : Cluster τ) (now : τ) (p : Progress τ (Work τ) Token) : Prop where
  turns : ∀ turn ∈ p.turns, ¬ now < p.work.stage.moment cluster turn.1
  begins : ∀ turn ∈ p.turns, ∀ i, turn.1 = .begin i → now = p.work.stage.base cluster
  delays : ∀ delay ∈ p.delays,
    p.work.stage.delay? cluster delay.2 = some delay.1 ∧ now = p.work.stage.base cluster
  stands : p.work.stage.At cluster now
  ends : p.outcome ≠ none → now = endOf cluster

variable [Clock.Exact τ] {cluster : Cluster τ} {timeout now : τ} {core listed : List String}
  {slots : List Slot}

open Clock.Exact

theorem Stage.not_moment_lt (stage : Stage) (token : Token) :
    ¬ stage.moment cluster token < stage.base cluster :=
  not_add_lt _ (not_wait_lt_zero _)

/-- The moment of a call that follows no delayed reply is the base. -/
theorem Stage.moment_eq_base {stage : Stage} {token : Token}
    (prompt : stage.delay? cluster token = none) :
    stage.moment cluster token = stage.base cluster := by
  rw [moment, prompt, wait, Clock.Exact.add_zero]

/-- At the moment of a call, time stands right for a stage that has taken notice of nothing. -/
theorem Stage.at_moment {stage : Stage} {token : Token} (fresh : ∀ i, stage.slot? i = none)
    (is : now = stage.moment cluster token) : stage.At cluster now := by
  refine ⟨fun i answer there => by simp [fresh] at there, ?_⟩
  cases delay : stage.delay? cluster token with
  | none => exact .inl (is.trans (moment_eq_base delay))
  | some _ => exact .inr ⟨token, by simp [delay], is⟩

/-- Time never stands before the base of a stage. -/
theorem Stage.At.not_lt_base {stage : Stage} (stands : stage.At cluster now) :
    ¬ now < stage.base cluster := by
  rcases stands.reached with rfl | ⟨token, -, rfl⟩
  · exact lt_irrefl _
  · exact stage.not_moment_lt token

/-! ### The end -/

omit [Clock.Exact τ] in
theorem mem_spans {span : τ} : span ∈ spans cluster listed ↔ ∃ i groupVersion,
    listed[i]? = some groupVersion ∧ Asks groupVersion ∧
      span = (replyAt cluster listed i groupVersion).span := by
  simp only [spans, List.mem_map, List.mem_filter, List.mem_mapIdx, decide_eq_true_eq]
  constructor
  · rintro ⟨reply, ⟨⟨i, bound, rfl⟩, asks⟩, rfl⟩
    exact ⟨i, listed[i], List.getElem?_eq_getElem bound, asks, rfl⟩
  · rintro ⟨i, groupVersion, there, asks, rfl⟩
    obtain ⟨bound, rfl⟩ := List.getElem?_eq_some_iff.1 there
    exact ⟨_, ⟨⟨i, bound, rfl⟩, asks⟩, rfl⟩

omit [Clock τ] [Clock.Exact τ] in
theorem delayAt?_of_asks {i : Nat} {groupVersion : String} (there : listed[i]? = some groupVersion)
    (asks : Asks groupVersion) :
    delayAt? cluster listed i = (replyAt cluster listed i groupVersion).delay := by
  obtain ⟨request, is⟩ := Option.isSome_iff_exists.1 (isSome_request?_iff.2 asks)
  simp [delayAt?, there, is]

omit [Clock.Exact τ] in
theorem wait_delayAt?_mem {i : Nat} (late : (delayAt? cluster listed i).isSome) :
    wait (delayAt? cluster listed i) ∈ spans cluster listed := by
  cases there : listed[i]? with
  | none => simp [delayAt?, there] at late
  | some groupVersion =>
    have asks : Asks groupVersion := by
      rw [← isSome_request?_iff]
      by_contra nothing
      rw [Option.not_isSome_iff_eq_none] at nothing
      simp [delayAt?, there, nothing] at late
    exact mem_spans.2 ⟨i, groupVersion, there, asks, by rw [delayAt?_of_asks there asks]; rfl⟩

omit [Clock.Exact τ] in
theorem endOf_of_listed (lists : cluster.unlisted? = none) :
    endOf cluster = (Stage.resources listed slots).base cluster +
      latest (spans cluster cluster.listed) := by
  unfold Cluster.unlisted? at lists
  split at lists <;> cases lists
  rename_i core groups
  simp only [endOf, core, groups]
  rfl

/-- When all requests are settled, it is the end. -/
theorem Stage.At.ended {taken : List Answer}
    (stands : (Stage.resources listed (taken.map .noticed)).At cluster now)
    (sound : (Stage.resources listed (taken.map .noticed)).Sound cluster) : now = endOf cluster := by
  obtain ⟨lists, rfl, length, -⟩ := sound
  rw [endOf_of_listed lists]
  apply eq_add_latest stands.not_lt_base
  · intro span mem
    obtain ⟨i, groupVersion, there, asks, rfl⟩ := mem_spans.1 mem
    have bound : i < taken.length := by
      have := (List.getElem?_eq_some_iff.1 there).1
      simpa [← length] using this
    have settled := stands.settled i taken[i] (by simp [Stage.slot?, bound])
    rwa [moment, delay?, Token.delay?, delayAt?_of_asks there asks] at settled
  · rcases stands.reached with base | ⟨token, late, is⟩
    · exact .inl base
    · cases token with
      | reply i | notice i => exact .inr ⟨_, wait_delayAt?_mem late, is⟩
      | _ => simp [delay?, Token.delay?] at late

/-! ### Calls at their moments -/

theorem paced_settleAt (sound : (Stage.resources listed slots).Sound cluster)
    (stands : (Stage.resources listed slots).At cluster now) :
    Paced cluster now (settleAt cluster listed slots) := by
  refine ⟨by simp, by simp, by simp, by simpa using stands, ?_⟩
  unfold settleAt
  split
  · simp
  · rename_i taken all
    rw [noticed?_eq_some_iff.1 all] at stands sound
    exact fun _ => stands.ended sound

theorem paced_onGroups (sound : (Stage.groups core).Sound cluster)
    (is : now = (Stage.groups core).moment cluster .groupsReply) :
    Paced cluster now (onGroups cluster core) := by
  have known := sound
  obtain ⟨versions, answered, rfl⟩ := sound
  unfold onGroups
  split
  · rename_i why failed
    refine ⟨by simp, by simp, by simp, Stage.at_moment (fun _ => rfl) is, fun _ => ?_⟩
    simp only [endOf, answered, failed]
    exact is
  · rename_i groups listing
    have lists : cluster.unlisted? = none := by simp [Cluster.unlisted?, answered, listing]
    have all : versions.getD [] ++ Cluster.versionsOf groups = cluster.listed := by
      simp [Cluster.listed, answered, listing, Except.toOption]
    rw [all]
    have base : now = (Stage.resources cluster.listed (cluster.listed.map fun _ => .waiting)).base
        cluster := is
    have stands : (Stage.resources cluster.listed (cluster.listed.map fun _ => .waiting)).At
        cluster now := by
      refine ⟨fun i answer there => ?_, .inl base⟩
      rw [Stage.slot?, List.getElem?_map] at there
      obtain ⟨-, -, impossible⟩ := Option.map_eq_some_iff.1 there
      cases impossible
    have paced := paced_settleAt (sound_waiting lists rfl) stands
    refine ⟨fun turn mem => ?_, fun turn mem i _ => ?_, ?_, paced.stands, paced.ends⟩
    · obtain ⟨i, -, rfl⟩ := List.mem_map.1 mem
      simp only [stage_settleAt]
      rw [Stage.moment_eq_base rfl, ← base]
      exact lt_irrefl now
    · simpa using base
    · simp

omit [Clock.Exact τ] in
/-- What is noted besides is of no account. -/
theorem Paced.note {p : Progress τ (Work τ) Token} (paced : Paced cluster now p)
    (notes : List (SourceNote τ)) : Paced cluster now { p with notes } :=
  ⟨paced.turns, paced.begins, paced.delays, paced.stands, paced.ends⟩

omit [Clock.Exact τ] in
/-- A request that goes out at the base of its stage is replied to at its moment. -/
theorem paced_ask {α : Type} {work : Work τ} {request : Request} {reply : Reply τ α} {token : Token}
    {onReply : Progress τ (Work τ) Token} (base : now = work.stage.base cluster)
    (late : ∀ delay, reply.delay = some delay → work.stage.delay? cluster token = some delay)
    (stands : work.stage.At cluster now)
    (atOnce : reply.delay = none → Paced cluster now onReply) :
    Paced cluster now (ask work timeout request reply token onReply) := by
  unfold ask
  split
  · rename_i delay is
    refine ⟨by simp, by simp, ?_, stands, nofun⟩
    simpa using ⟨late delay is, base⟩
  · rename_i undelayed
    exact (atOnce undelayed).note _

theorem paced_onCore (is : now = Stage.core.moment cluster .coreReply) :
    Paced cluster now (onCore timeout cluster) := by
  have span : now = cluster.coreVersions.span := by
    rw [is, Stage.moment, Stage.base, Clock.Exact.zero_add]
    rfl
  unfold onCore
  split
  · rename_i why failed
    refine ⟨by simp, by simp, by simp, Stage.at_moment (fun _ => rfl) is, fun _ => ?_⟩
    simp only [endOf, failed]
    exact span
  · rename_i versions answered
    have sound : (Stage.groups (versions.getD [])).Sound cluster := ⟨versions, answered, rfl⟩
    have base : now = (Stage.groups (versions.getD [])).base cluster := span
    have stands : (Stage.groups (versions.getD [])).At cluster now := ⟨nofun, .inl base⟩
    have paced : Paced cluster now (ask ⟨cluster, .groups (versions.getD [])⟩ timeout .groups
        cluster.groups .groupsReply (onGroups cluster (versions.getD []))) := by
      refine paced_ask base (fun _ => id) stands fun undelayed => paced_onGroups sound ?_
      have prompt : (Stage.groups (versions.getD [])).delay? cluster .groupsReply = none :=
        undelayed
      rw [Stage.moment_eq_base prompt, base]
    exact paced.note _

theorem paced_start (timeout : τ) (cluster : Cluster τ) :
    Paced cluster 0 ((source timeout ⟨cluster, []⟩).start 0) := by
  refine paced_ask rfl (fun _ => id) ⟨nofun, .inl rfl⟩ fun undelayed => paced_onCore ?_
  have prompt : Stage.core.delay? cluster .coreReply = none := undelayed
  rw [Stage.moment_eq_base prompt]
  rfl

section

variable {i : Nat} {slot : Slot}

omit [Clock.Exact τ] in
/-- The survey takes notice of one more request at or after its moment. -/
theorem Stage.At.set (stands : (Stage.resources listed slots).At cluster now) (next : Slot)
    (settled : ∀ answer, next = .noticed answer →
      ¬ now < (Stage.resources listed slots).moment cluster (.notice i)) :
    (Stage.resources listed (slots.set i next)).At cluster now := by
  refine ⟨fun j answer there => ?_, stands.reached⟩
  rw [Stage.slot?, List.getElem?_set] at there
  split at there
  · rename_i same
    subst same
    split at there
    · exact settled answer (Option.some.inj there)
    · cases there
  · exact stands.settled j answer there

omit [Clock.Exact τ] in
theorem paced_answerAt (stands : (Stage.resources listed slots).At cluster now)
    (settled : ¬ now < (Stage.resources listed slots).moment cluster (.notice i))
    (answer : Answer) : Paced cluster now (answerAt cluster listed slots i answer) := by
  refine ⟨fun turn mem => ?_, ?_, by simp [answerAt], stands.set _ nofun, nofun⟩
  · cases List.mem_singleton.1 mem
    exact settled
  · simp [answerAt]

theorem paced_beginAt {groupVersion : String} (there : listed[i]? = some groupVersion)
    (stands : (Stage.resources listed slots).At cluster now)
    (base : now = (Stage.resources listed slots).base cluster) :
    Paced cluster now (beginAt timeout cluster listed slots i groupVersion) := by
  have settled (prompt : (Stage.resources listed slots).delay? cluster (.notice i) = none) :
      ¬ now < (Stage.resources listed slots).moment cluster (.notice i) := by
    rw [Stage.moment_eq_base prompt, ← base]
    exact lt_irrefl now
  unfold beginAt
  split
  · rename_i nothing
    have undelayed : delayAt? cluster listed i = none := by simp [delayAt?, there, nothing]
    exact (paced_answerAt stands (settled undelayed) (.ok none)).note _
  · rename_i request asks
    have delay : delayAt? cluster listed i = (replyAt cluster listed i groupVersion).delay := by
      simp [delayAt?, there, asks]
    refine paced_ask base (fun _ late => ?_) (stands.set _ nofun) fun undelayed => ?_
    · exact delay.trans late
    · have paced := paced_answerAt stands (settled (delay.trans undelayed))
        (((replyAt cluster listed i groupVersion).answer.bind (·.listing groupVersion)).map some)
      exact paced.note _

end

/-- A stage that waits for one reply only is called at the moment of that one. -/
theorem Stage.At.eq_moment {stage : Stage} {token : Token} (stands : stage.At cluster now)
    (only : ∀ other, (stage.delay? cluster other).isSome → other = token)
    (after : ¬ now < stage.moment cluster token) : now = stage.moment cluster token := by
  rcases stands.reached with rfl | ⟨other, late, rfl⟩
  · exact eq_of_not_lt after (stage.not_moment_lt token)
  · rw [only other late]

/-- Every call asks for what it asks for at the right time. -/
theorem paced_resume {work : Work τ} (own : work.cluster = cluster)
    (sound : work.stage.Sound cluster) {token : Token} (stands : work.stage.At cluster now)
    (after : ¬ now < work.stage.moment cluster token)
    (base : ∀ i, token = .begin i → now = work.stage.base cluster)
    (waited : token ∈ work.stage.tokens) :
    Paced cluster now (resume timeout work token) := by
  obtain ⟨_, stage⟩ := work
  subst own
  rename_i cluster
  cases stage with
  | core =>
    cases List.mem_singleton.1 waited
    have only : ∀ other, (Stage.core.delay? cluster other).isSome → other = .coreReply := by
      intro other late
      by_contra different
      simp [Stage.delay?, different] at late
    exact paced_onCore (stands.eq_moment only after)
  | groups core =>
    cases List.mem_singleton.1 waited
    have only : ∀ other, ((Stage.groups core).delay? cluster other).isSome →
        other = .groupsReply := by
      intro other late
      by_contra different
      simp [Stage.delay?, different] at late
    exact paced_onGroups sound (stands.eq_moment only after)
  | resources listed slots =>
    obtain ⟨i, slot, there, mine⟩ := mem_tokensFrom.1 waited
    obtain ⟨groupVersion, listed_there⟩ := sound.exists_listed there
    rw [Nat.zero_add] at mine
    cases slot with
    | noticed answer => cases mine
    | waiting =>
      cases mine
      simp only [resume, listed_there, there]
      exact paced_beginAt listed_there stands (base i rfl)
    | asked =>
      cases mine
      simp only [resume, listed_there, there]
      have paced := paced_answerAt stands after
        (((replyAt cluster listed i groupVersion).answer.bind (·.listing groupVersion)).map some)
      exact paced.note _
    | answered answer =>
      cases mine
      simp only [resume, there]
      have right : answer = answerTo cluster listed i groupVersion :=
        sound.2.2.2 i groupVersion (.answered answer) listed_there there
      exact paced_settleAt (sound.set listed_there right) (stands.set _ fun _ _ => after)

/-! ### Every punctual order -/

/-- Everything happens at its moment. -/
structure Timely (cluster : Cluster τ) (t : Timeline τ Token (Fetch τ (Work τ))) : Prop where
  alarms : ∀ alarm ∈ t.alarms, ∃ delay,
    t.state.work.stage.delay? cluster alarm.target = some delay ∧
      alarm.due = t.state.work.stage.base cluster + delay
  line : ∀ turn ∈ t.ready, ¬ t.now < t.state.work.stage.moment cluster turn.target
  begins : ∀ turn ∈ t.ready, ∀ i, turn.target = .begin i →
    t.now = t.state.work.stage.base cluster
  stands : t.state.work.stage.At cluster t.now
  ends : Fetch.Ended t → t.now = endOf cluster

variable {t u : Timeline τ Token (Fetch τ (Work τ))}

omit [Clock τ] [Clock.Exact τ] in
/-- No reply leads to the call that begins a request. -/
theorem Stage.delay?_begin (stage : Stage) (i : Nat) : stage.delay? cluster (.begin i) = none := by
  cases stage with
  | core => simp [delay?]
  | groups core => simp [delay?]
  | resources listed slots => rfl

/-- Alarms go off at the moments of their calls. -/
theorem Timely.ring (timely : Timely cluster t) (unended : ¬ Fetch.Ended t)
    {alarm : Alarm τ Token} {others : List (Alarm τ Token)}
    (set : t.alarms.Perm (alarm :: others)) (prompt : t.Prompt (t.ring alarm others)) :
    Timely cluster (t.ring alarm others) := by
  obtain ⟨delay, late, due⟩ := timely.alarms alarm (set.mem_iff.2 List.mem_cons_self)
  have onward : ¬ later t.now alarm.due < t.now := not_later_lt_left _ _
  have based := timely.stands.not_lt_base
  have moment : t.state.work.stage.moment cluster alarm.target =
      later (t.state.work.stage.base cluster) alarm.due := by
    rw [Stage.moment, late, add_wait, due]
  refine ⟨?_, ?_, ?_, ⟨?_, ?_⟩, ?_⟩
  · intro other mem
    rw [Timeline.ring_alarms] at mem
    rw [Timeline.ring_state]
    exact timely.alarms other (set.mem_iff.2 (List.mem_cons_of_mem _ mem))
  · intro turn mem
    rw [Timeline.ring_ready] at mem
    rw [Timeline.ring_state, Timeline.now_ring]
    rcases List.mem_append.1 mem with old | new
    · exact not_lt_trans (timely.line turn old) onward
    · cases List.mem_singleton.1 new
      rw [moment]
      exact not_lt_later (not_lt_trans based onward) (not_later_lt_right _ _)
  · intro turn mem i is
    rw [Timeline.ring_ready] at mem
    rw [Timeline.ring_state]
    rcases List.mem_append.1 mem with old | new
    · rcases prompt with same | ⟨empty, -⟩
      · exact same.trans (timely.begins turn old i is)
      · rw [empty] at old
        cases old
    · cases List.mem_singleton.1 new
      rw [show alarm.target = .begin i from is, Stage.delay?_begin] at late
      cases late
  · intro i answer there
    rw [Timeline.ring_state] at there ⊢
    rw [Timeline.now_ring]
    exact not_lt_trans (timely.stands.settled i answer there) onward
  · rw [Timeline.ring_state, Timeline.now_ring]
    by_cases ahead : t.now < alarm.due
    · refine .inr ⟨alarm.target, by simp [late], ?_⟩
      have after : ¬ alarm.due < t.state.work.stage.base cluster :=
        not_lt_trans based (lt_asymm ahead)
      rw [moment, later_eq_right after, later, if_pos ahead]
    · rw [later_eq_left ahead]
      exact timely.stands.reached
  · rw [Fetch.Ended, Timeline.ring_state]
    exact fun ended => absurd ended unended

omit [Clock.Exact τ] in
/-- What a call does is done at its moment. -/
theorem timely_absorb {p : Progress τ (Work τ) Token} (paced : Paced cluster t.now p)
    (alarms : ∀ alarm ∈ t.alarms, ∃ delay,
      p.work.stage.delay? cluster alarm.target = some delay ∧
        alarm.due = p.work.stage.base cluster + delay)
    (line : ∀ turn ∈ t.ready, ¬ t.now < p.work.stage.moment cluster turn.target)
    (begins : ∀ turn ∈ t.ready, ∀ i, turn.target = .begin i →
      t.now = p.work.stage.base cluster) : Timely cluster (Fetch.absorb p t) := by
  rw [Fetch.absorb_eq]
  refine ⟨?_, ?_, ?_, paced.stands, paced.ends⟩
  · intro alarm mem
    rcases List.mem_append.1 mem with old | new
    · exact alarms alarm old
    · obtain ⟨delay, there, rfl⟩ := List.mem_map.1 new
      obtain ⟨late, base⟩ := paced.delays delay there
      exact ⟨delay.1, late, by rw [base]⟩
  · intro turn mem
    rcases List.mem_append.1 mem with old | new
    · exact line turn old
    · obtain ⟨asked, there, rfl⟩ := List.mem_map.1 new
      exact paced.turns asked there
  · intro turn mem i is
    rcases List.mem_append.1 mem with old | new
    · exact begins turn old i is
    · obtain ⟨asked, there, rfl⟩ := List.mem_map.1 new
      exact paced.begins asked there i is

omit [Clock τ] [Clock.Exact τ] in
/-- Once it is known what is listed, it stays known. -/
theorem exists_stage_resume {work : Work τ} (known : work.stage = .resources listed slots)
    (token : Token) :
    ∃ slots', (resume timeout work token).work.stage = .resources listed slots' := by
  obtain ⟨cluster, stage⟩ := work
  cases known
  cases token with
  | begin i =>
    simp only [resume]
    split
    · unfold beginAt
      split
      · exact ⟨_, rfl⟩
      · unfold ask
        split <;> exact ⟨_, rfl⟩
    · exact ⟨slots, rfl⟩
  | reply i =>
    simp only [resume]
    split <;> exact ⟨_, rfl⟩
  | notice i =>
    simp only [resume]
    split
    · exact ⟨_, stage_settleAt⟩
    · exact ⟨slots, rfl⟩
  | _ => exact ⟨slots, rfl⟩

/-- The head of the line is called at its moment. -/
theorem Timely.turn (timely : Timely cluster t) (standing : Standing cluster t)
    (unended : ¬ Fetch.Ended t) {token : Token} {rest : List (Turn Token)}
    (ready : t.ready = ⟨token, 0⟩ :: rest) :
    Timely cluster
      (Fetch.absorb (resume timeout t.state.work token) { t with ready := rest }) := by
  have waits := standing.waits unended
  simp only [Timeline.targets, ready, List.map_cons, List.cons_append] at waits
  have head : (⟨token, 0⟩ : Turn Token) ∈ t.ready := ready ▸ List.mem_cons_self
  have behind : ∀ turn ∈ rest, turn ∈ t.ready := fun turn mem =>
    ready ▸ List.mem_cons_of_mem _ mem
  have paced : Paced cluster t.now (resume timeout t.state.work token) :=
    paced_resume standing.own standing.stage timely.stands (timely.line _ head)
      (timely.begins _ head) (waits.mem_iff.1 List.mem_cons_self)
  -- Before it is known what is listed, nobody else is to be called.
  have alone (single : t.state.work.stage.tokens.length = 1) : rest = [] ∧ t.alarms = [] := by
    have length := waits.length_eq
    rw [single] at length
    simpa using length
  cases stage : t.state.work.stage with
  | core =>
    obtain ⟨rfl, silent⟩ := alone (by rw [stage]; rfl)
    exact timely_absorb paced (by simp [silent]) (by simp) (by simp)
  | groups core =>
    obtain ⟨rfl, silent⟩ := alone (by rw [stage]; rfl)
    exact timely_absorb paced (by simp [silent]) (by simp) (by simp)
  | resources listed slots =>
    obtain ⟨slots', next⟩ :
        ∃ slots', (resume timeout t.state.work token).work.stage = .resources listed slots' :=
      exists_stage_resume stage token
    have alarms := timely.alarms
    have line := timely.line
    have begins := timely.begins
    simp only [stage] at alarms line begins
    refine timely_absorb paced ?_ ?_ ?_
    · rw [next]
      exact alarms
    · rw [next]
      exact fun turn mem => line turn (behind turn mem)
    · rw [next]
      exact fun turn mem => begins turn (behind turn mem)

omit [Clock.Exact τ] in
/-- A turn that goes to the end of the line once more is still at or after its moment. -/
theorem Timely.relay (timely : Timely cluster t) {token : Token} {relays : Nat}
    {rest : List (Turn Token)} (ready : t.ready = ⟨token, relays + 1⟩ :: rest) :
    Timely cluster (Timeline.wake token relays { t with ready := rest }) := by
  have same : ∀ turn ∈ rest ++ [⟨token, relays⟩], ∃ old ∈ t.ready, old.target = turn.target := by
    intro turn mem
    rcases List.mem_append.1 mem with behind | again
    · exact ⟨turn, ready ▸ List.mem_cons_of_mem _ behind, rfl⟩
    · cases List.mem_singleton.1 again
      exact ⟨⟨token, relays + 1⟩, ready ▸ List.mem_cons_self, rfl⟩
  refine ⟨timely.alarms, fun turn mem => ?_, fun turn mem i is => ?_, timely.stands, timely.ends⟩
  · obtain ⟨old, there, target⟩ := same turn mem
    exact target ▸ timely.line old there
  · obtain ⟨old, there, target⟩ := same turn mem
    exact timely.begins old there i (target.trans is)

/-- Everything happens at its moment, in whichever order those due at one moment come. -/
theorem timely (punctual : Fetch.Punctual (source timeout ⟨cluster, []⟩) t) : Timely cluster t := by
  unfold Fetch.Punctual at punctual
  induction punctual with
  | refl =>
    have paced : Paced cluster (0 : τ) ((source timeout ⟨cluster, []⟩).start 0) :=
      paced_start timeout cluster
    exact timely_absorb paced nofun nofun nofun
  | @tail t u before last ih =>
    have reached : Fetch.Reachable (source timeout ⟨cluster, []⟩) t :=
      Fetch.Punctual.reachable before
    obtain ⟨step, prompt⟩ := last
    have unended : ¬ Fetch.Ended t := by
      rw [← reached.waits_iff finite]
      cases step with
      | turn line => simp [Timeline.targets, line]
      | ring set => simpa [Timeline.targets] using fun _ none => by simp [none] at set
    cases step with
    | ring set => exact ih.ring unended set prompt
    | @turn turn rest line =>
      obtain ⟨token, relays⟩ := turn
      cases relays with
      | zero => exact ih.turn (standing reached) unended line
      | succ relays =>
        exact ih.relay line

end Survey

end ApiCatalog
