/-
# ApiCatalog.Proofs.Surveys -- what a survey comes to

What a survey ends with is settled by the replies of its cluster alone
(`Survey.outcomeOf`): neither the delays of the replies nor the order in which
they come make a difference (`Survey.yields_iff`).

And it ends.  While it goes on, each request owes it just one more call
(`Survey.Owes`), and a call costs more than those that it leads to
(`Survey.finite`).
-/
import ApiCatalog.Proofs.Settling
import ApiCatalog.Survey

namespace ApiCatalog

set_option autoImplicit false

@[simp] theorem Script.at_alone {α : Type} (only : α) (i : Nat) :
    Script.at ⟨only, []⟩ i = only := by
  simp [Script.at]

namespace Cluster

variable {τ : Type}

/-- The group-versions that a cluster lists: the core versions, then those of its groups. -/
def listed (cluster : Cluster τ) : List String :=
  (cluster.coreVersions.answer.toOption.getD none).getD [] ++
    versionsOf (cluster.groups.answer.toOption.getD none)

/-- Why the group-versions cannot be listed, if they cannot. -/
def unlisted? (cluster : Cluster τ) : Option Failure :=
  match cluster.coreVersions.answer, cluster.groups.answer with
  | .error why, _ => some why
  | .ok _, .error why => some why
  | .ok _, .ok _ => none

end Cluster

namespace Survey

variable {τ : Type}

/-! ## The answers and the outcome -/

/-- The answer to the request at a place of what is listed, whenever it comes. -/
def answerTo (cluster : Cluster τ) (listed : List String) (i : Nat) (groupVersion : String) :
    Answer :=
  match request? groupVersion with
  | none => .ok none
  | some _ =>
    ((replyAt cluster listed i groupVersion).answer.bind (·.listing groupVersion)).map some

/-- The answers to all that is listed, in order. -/
def answers (cluster : Cluster τ) : List Answer :=
  cluster.listed.mapIdx (answerTo cluster cluster.listed)

/-- What a survey of a cluster ends with. -/
def outcomeOf (cluster : Cluster τ) : Outcome :=
  match cluster.unlisted? with
  | some why => .error (listingFailure why)
  | none => conclude cluster.listed (answers cluster)

theorem noticed?_eq_some_iff {slots : List Slot} {taken : List Answer} :
    noticed? slots = some taken ↔ slots = taken.map .noticed := by
  induction slots generalizing taken with
  | nil => cases taken <;> simp [noticed?]
  | cons slot rest ih =>
    cases slot with
    | noticed answer => cases taken <;> simp [noticed?, ih, and_comm]
    | _ => cases taken <;> simp [noticed?]

/-! ## Surveys keep to the answers -/

/-- A request that has gone out asks for something, and one that has been answered has the right
answer. -/
def Slot.Sound (answer : Answer) : Slot → Prop
  | .waiting => True
  | .asked => answer ≠ .ok none
  | .answered taken | .noticed taken => taken = answer

/-- What is known of a cluster at some stage of its survey. -/
def Stage.Sound (cluster : Cluster τ) : Stage → Prop
  | .core => True
  | .groups known =>
    ∃ versions, cluster.coreVersions.answer = .ok versions ∧ known = versions.getD []
  | .resources listed slots =>
    cluster.unlisted? = none ∧ listed = cluster.listed ∧ slots.length = listed.length ∧
      ∀ (i : Nat) (groupVersion : String) (slot : Slot), listed[i]? = some groupVersion →
        slots[i]? = some slot → slot.Sound (answerTo cluster listed i groupVersion)

/-- A survey is one of its cluster and knows what is right, and it ends with nothing else than the
outcome of its cluster. -/
structure Keeps (cluster : Cluster τ) (p : Progress τ (Work τ) Token) : Prop where
  own : p.work.cluster = cluster
  stage : p.work.stage.Sound cluster
  outcome : ∀ o, p.outcome = some o → o = outcomeOf cluster

variable {cluster : Cluster τ} {core listed : List String} {slots : List Slot} {timeout : τ}

theorem Stage.Sound.set (sound : (Stage.resources listed slots).Sound cluster) {i : Nat}
    {groupVersion : String} (there : listed[i]? = some groupVersion) {slot : Slot}
    (right : slot.Sound (answerTo cluster listed i groupVersion)) :
    (Stage.resources listed (slots.set i slot)).Sound cluster := by
  obtain ⟨lists, all, length, each⟩ := sound
  refine ⟨lists, all, by simpa using length, fun j other slot' other_there slot_there => ?_⟩
  rw [List.getElem?_set] at slot_there
  split at slot_there
  · rename_i same
    subst same
    rw [there] at other_there
    split at slot_there
    · cases other_there
      cases slot_there
      exact right
    · cases slot_there
  · exact each j other slot' other_there slot_there

theorem Stage.Sound.exists_listed (sound : (Stage.resources listed slots).Sound cluster) {i : Nat}
    {slot : Slot} (there : slots[i]? = some slot) :
    ∃ groupVersion, listed[i]? = some groupVersion := by
  have bound : i < listed.length := sound.2.2.1 ▸ (List.getElem?_eq_some_iff.1 there).1
  exact ⟨_, List.getElem?_eq_getElem bound⟩

/-- The answers that were taken notice of are those to what is listed. -/
theorem Stage.Sound.taken {taken : List Answer}
    (sound : (Stage.resources listed (taken.map .noticed)).Sound cluster) :
    taken = answers cluster := by
  obtain ⟨-, rfl, length, each⟩ := sound
  refine List.ext_getElem? fun i => ?_
  rw [answers, List.getElem?_mapIdx]
  rw [List.length_map] at length
  cases there : cluster.listed[i]? with
  | none => simpa [length] using there
  | some groupVersion =>
    have bound : i < taken.length := length ▸ (List.getElem?_eq_some_iff.1 there).1
    have right : taken[i] = answerTo cluster cluster.listed i groupVersion :=
      each i groupVersion (.noticed taken[i]) there (by simp [bound])
    simp [bound, right]

theorem keeps_settleAt (sound : (Stage.resources listed slots).Sound cluster) :
    Keeps cluster (settleAt cluster listed slots) := by
  unfold settleAt
  split
  · exact ⟨rfl, sound, nofun⟩
  · rename_i taken all
    refine ⟨rfl, sound, fun o ends => ?_⟩
    rw [noticed?_eq_some_iff.1 all] at sound
    cases ends
    rw [outcomeOf, sound.1, sound.taken, sound.2.1]

theorem keeps_ask {α : Type} {work : Work τ} {request : Request} {reply : Reply τ α} {token : Token}
    {onReply : Progress τ (Work τ) Token} (same : work.cluster = cluster)
    (sound : work.stage.Sound cluster) (keeps : Keeps cluster onReply) :
    Keeps cluster (ask work timeout request reply token onReply) := by
  unfold ask
  split
  · exact ⟨same, sound, nofun⟩
  · exact ⟨keeps.own, keeps.stage, keeps.outcome⟩

/-- Before any request has gone out, all is right. -/
theorem sound_waiting (lists : cluster.unlisted? = none) (all : listed = cluster.listed) :
    (Stage.resources listed (listed.map fun _ => .waiting)).Sound cluster := by
  refine ⟨lists, all, by simp, fun i groupVersion slot _ there => ?_⟩
  rw [List.getElem?_map] at there
  obtain ⟨-, -, rfl⟩ := Option.map_eq_some_iff.1 there
  trivial

theorem keeps_onGroups (sound : (Stage.groups core).Sound cluster) :
    Keeps cluster (onGroups cluster core) := by
  have known := sound
  obtain ⟨versions, answered, rfl⟩ := sound
  unfold onGroups
  split
  · rename_i why failed
    refine ⟨rfl, known, fun o ends => ?_⟩
    cases ends
    simp [outcomeOf, Cluster.unlisted?, answered, failed]
  · rename_i groups listing
    have lists : cluster.unlisted? = none := by simp [Cluster.unlisted?, answered, listing]
    have all : versions.getD [] ++ Cluster.versionsOf groups = cluster.listed := by
      simp [Cluster.listed, answered, listing, Except.toOption]
    have keeps := keeps_settleAt (sound_waiting lists all)
    exact ⟨keeps.own, keeps.stage, keeps.outcome⟩

theorem keeps_onCore : Keeps cluster (onCore timeout cluster) := by
  unfold onCore
  split
  · rename_i why failed
    refine ⟨rfl, trivial, fun o ends => ?_⟩
    cases ends
    simp [outcomeOf, Cluster.unlisted?, failed]
  · rename_i versions answered
    have sound : (Stage.groups (versions.getD [])).Sound cluster := ⟨versions, answered, rfl⟩
    have keeps : Keeps cluster (ask ⟨cluster, .groups (versions.getD [])⟩ timeout .groups
        cluster.groups .groupsReply (onGroups cluster (versions.getD []))) :=
      keeps_ask rfl sound (keeps_onGroups sound)
    exact ⟨keeps.own, keeps.stage, keeps.outcome⟩

/-- There is an answer for what was asked, and only for that. -/
theorem answerTo_ne_iff {i : Nat} {groupVersion : String} :
    answerTo cluster listed i groupVersion ≠ .ok none ↔ (request? groupVersion).isSome := by
  unfold answerTo
  split
  · simp [*]
  · rename_i request asks
    cases (replyAt cluster listed i groupVersion).answer.bind (·.listing groupVersion) <;>
      simp [asks, Except.map]

section

variable (sound : (Stage.resources listed slots).Sound cluster) {i : Nat} {groupVersion : String}
  (there : listed[i]? = some groupVersion)

include sound there

theorem keeps_onResources (asks : (request? groupVersion).isSome) :
    Keeps cluster (onResources cluster listed slots i groupVersion) := by
  obtain ⟨request, asks⟩ := Option.isSome_iff_exists.1 asks
  exact ⟨rfl, sound.set there (by simp [Slot.Sound, answerTo, asks]), nofun⟩

theorem keeps_beginAt : Keeps cluster (beginAt timeout cluster listed slots i groupVersion) := by
  unfold beginAt
  split
  · rename_i nothing
    exact ⟨rfl, sound.set there (by simp [Slot.Sound, answerTo, nothing]), nofun⟩
  · rename_i request asks
    have asked : (request? groupVersion).isSome := by simp [asks]
    exact keeps_ask rfl (sound.set there (answerTo_ne_iff.2 asked))
      (keeps_onResources sound there asked)

end

/-- A call leaves a survey with what is right, whichever call it is. -/
theorem keeps_resume {work : Work τ} (own : work.cluster = cluster)
    (sound : work.stage.Sound cluster) (token : Token) :
    Keeps cluster (resume timeout work token) := by
  obtain ⟨_, stage⟩ := work
  subst own
  rename_i cluster
  have still : Keeps cluster ({ work := ⟨cluster, stage⟩ } : Progress τ (Work τ) Token) :=
    ⟨rfl, sound, nofun⟩
  cases stage with
  | core =>
    cases token with
    | coreReply => exact keeps_onCore
    | _ => exact still
  | groups core =>
    cases token with
    | groupsReply => exact keeps_onGroups sound
    | _ => exact still
  | resources listed slots =>
    cases token with
    | begin i =>
      simp only [resume]
      split
      · rename_i groupVersion there waiting
        exact keeps_beginAt sound there
      · exact still
    | reply i =>
      simp only [resume]
      split
      · rename_i groupVersion there asked
        exact keeps_onResources sound there
          (answerTo_ne_iff.1 (sound.2.2.2 i groupVersion .asked there asked))
      · exact still
    | notice i =>
      simp only [resume]
      split
      · rename_i answer answered
        obtain ⟨groupVersion, there⟩ := sound.exists_listed answered
        have right : answer = answerTo cluster listed i groupVersion :=
          sound.2.2.2 i groupVersion (.answered answer) there answered
        exact keeps_settleAt (sound.set there right)
      · exact still
    | _ => exact still

variable {clusters : Script (Cluster τ)} {n : Nat}

theorem keeps_start : Keeps (clusters.at n) ((source timeout clusters).start n) :=
  keeps_ask rfl trivial keeps_onCore

/-- Whatever calls come and in whichever order, a survey keeps to what is right. -/
theorem keeps_of_course {p : Progress τ (Work τ) Token}
    (course : (source timeout clusters).Course n p) : Keeps (clusters.at n) p := by
  induction course with
  | start => exact keeps_start
  | resume before unfinished token ih => exact keeps_resume ih.own ih.stage token

/-! ## Surveys come to an end -/

/-- The call that a request waits for. -/
def Slot.token? (i : Nat) : Slot → Option Token
  | .waiting => some (.begin i)
  | .asked => some (.reply i)
  | .answered _ => some (.notice i)
  | .noticed _ => none

/-- The calls that requests wait for, numbered from a place on. -/
def tokensFrom : Nat → List Slot → List Token
  | _, [] => []
  | i, slot :: rest => (slot.token? i).toList ++ tokensFrom (i + 1) rest

/-- The calls that a survey waits for at some stage. -/
def Stage.tokens : Stage → List Token
  | .core => [.coreReply]
  | .groups _ => [.groupsReply]
  | .resources _ slots => tokensFrom 0 slots

theorem mem_tokensFrom {token : Token} {slots : List Slot} {k : Nat} :
    token ∈ tokensFrom k slots ↔
      ∃ (i : Nat) (slot : Slot), slots[i]? = some slot ∧ slot.token? (k + i) = some token := by
  induction slots generalizing k with
  | nil => simp [tokensFrom]
  | cons slot rest ih =>
    rw [tokensFrom, List.mem_append, ih, Option.mem_toList]
    constructor
    · rintro (mine | ⟨i, other, there, mine⟩)
      · exact ⟨0, slot, rfl, mine⟩
      · exact ⟨i + 1, other, there, by rwa [← Nat.add_assoc, Nat.add_right_comm]⟩
    · rintro ⟨i, other, there, mine⟩
      cases i with
      | zero =>
        cases there
        exact .inl mine
      | succ i => exact .inr ⟨i, other, there, by rwa [Nat.add_right_comm, Nat.add_assoc]⟩

/-- One request stands apart from the others. -/
theorem tokensFrom_set {slots : List Slot} {i : Nat} {slot : Slot} (there : slots[i]? = some slot)
    (k : Nat) :
    ∃ others, (tokensFrom k slots).Perm ((slot.token? (k + i)).toList ++ others) ∧
      ∀ next : Slot, (tokensFrom k (slots.set i next)).Perm
        ((next.token? (k + i)).toList ++ others) := by
  induction slots generalizing i k with
  | nil => cases there
  | cons first rest ih =>
    cases i with
    | zero =>
      cases there
      exact ⟨tokensFrom (k + 1) rest, .refl _, fun next => .refl _⟩
    | succ i =>
      obtain ⟨others, perm, each⟩ := ih there (k + 1)
      have place : k + 1 + i = k + (i + 1) := by omega
      have shift : ∀ {mine tokens : List Token}, tokens.Perm (mine ++ others) →
          ((first.token? k).toList ++ tokens).Perm
            (mine ++ ((first.token? k).toList ++ others)) := fun same =>
        (same.append_left _).trans (List.perm_append_comm_assoc _ _ _)
      rw [place] at perm each
      exact ⟨_, shift perm, fun next => shift (each next)⟩

theorem tokensFrom_eq_nil_iff {slots : List Slot} {k : Nat} :
    tokensFrom k slots = [] ↔ noticed? slots ≠ none := by
  induction slots generalizing k with
  | nil => simp [tokensFrom, noticed?]
  | cons slot rest ih => cases slot <;> simp [tokensFrom, noticed?, Slot.token?, ih]

theorem tokensFrom_waiting (listed : List String) (k : Nat) :
    tokensFrom k (listed.map fun _ => .waiting) = (List.range' k listed.length).map .begin := by
  induction listed generalizing k with
  | nil => rfl
  | cons first rest ih =>
    rw [List.map_cons, tokensFrom, ih, List.length_cons, List.range'_succ]
    rfl

/-- What each call costs where so many group-versions are listed. -/
def cost (count : Nat) : Token → Nat
  | .coreReply => 5 * count + 3
  | .groupsReply => 5 * count + 1
  | .begin _ => 5
  | .reply _ => 3
  | .notice _ => 1

/-- A survey that goes on waits for the calls that are owed, and there are some. -/
structure Owes (p : Progress τ (Work τ) Token) (owed : List Token) : Prop where
  waits : p.outcome = none → owed.Perm p.work.stage.tokens
  ends : p.outcome = none ↔ owed ≠ []

theorem owes_settleAt {owed : List Token} (same : owed.Perm (tokensFrom 0 slots)) :
    Owes (settleAt cluster listed slots) owed := by
  unfold settleAt
  split
  · rename_i unnoticed
    refine ⟨fun _ => same, iff_of_true rfl ?_⟩
    rintro rfl
    exact tokensFrom_eq_nil_iff.1 same.nil_eq.symm unnoticed
  · rename_i taken all
    have settled : tokensFrom 0 slots = [] := tokensFrom_eq_nil_iff.2 (by simp [all])
    rw [settled] at same
    exact ⟨nofun, by simp [same.eq_nil]⟩

theorem owes_ask {α : Type} {work : Work τ} {request : Request} {reply : Reply τ α} {token : Token}
    {onReply : Progress τ (Work τ) Token} {rest : List Token}
    (waits : (rest ++ [token]).Perm work.stage.tokens)
    (owes : Owes onReply (rest ++ onReply.calls)) :
    Owes (ask work timeout request reply token onReply)
      (rest ++ (ask work timeout request reply token onReply).calls) := by
  unfold ask
  split
  · exact ⟨fun _ => waits, by simp [Progress.calls]⟩
  · exact ⟨owes.waits, owes.ends⟩

theorem load_ask {α : Type} {work : Work τ} {request : Request} {reply : Reply τ α}
    {onReply : Progress τ (Work τ) Token} (cost : Token → Nat) (token : Token)
    (cheaper : onReply.load cost ≤ cost token) :
    (ask work timeout request reply token onReply).load cost ≤ cost token + 1 := by
  unfold ask
  split
  · simp [Progress.load]
  · exact Nat.le_succ_of_le cheaper

/-- What a survey has to say is no matter. -/
theorem Owes.noting {p : Progress τ (Work τ) Token} {rest : List Token}
    (owes : Owes p (rest ++ p.calls)) (notes : List (SourceNote τ)) :
    Owes { p with notes } (rest ++ Progress.calls { p with notes }) := ⟨owes.waits, owes.ends⟩

@[simp] theorem turns_settleAt : (settleAt cluster listed slots).turns = [] := by
  unfold settleAt
  split <;> rfl

@[simp] theorem delays_settleAt : (settleAt cluster listed slots).delays = [] := by
  unfold settleAt
  split <;> rfl

theorem owes_onGroups (cluster : Cluster τ) (core : List String) :
    Owes (onGroups cluster core) (onGroups cluster core).calls := by
  unfold onGroups
  split
  · exact ⟨nofun, by simp [Progress.calls]⟩
  · rename_i groups listing
    generalize core ++ Cluster.versionsOf groups = listed
    have owes : Owes (settleAt cluster listed (listed.map fun _ => .waiting))
        ((List.range listed.length).map .begin) :=
      owes_settleAt (.of_eq (by rw [tokensFrom_waiting, List.range_eq_range']))
    simp only [Progress.calls, delays_settleAt, List.map_map, List.map_nil, List.append_nil]
    exact ⟨owes.waits, owes.ends⟩

theorem load_onGroups (sound : (Stage.groups core).Sound cluster) :
    (onGroups cluster core).load (cost cluster.listed.length) ≤ 5 * cluster.listed.length := by
  obtain ⟨versions, answered, rfl⟩ := sound
  unfold onGroups
  split
  · simp [Progress.load]
  · rename_i groups listing
    have all : versions.getD [] ++ Cluster.versionsOf groups = cluster.listed := by
      simp [Cluster.listed, answered, listing, Except.toOption]
    rw [all]
    simp [Progress.load, cost, Function.comp_def, Nat.mul_comm]

theorem owes_onCore : Owes (onCore timeout cluster) (onCore timeout cluster).calls := by
  unfold onCore
  split
  · exact ⟨nofun, by simp [Progress.calls]⟩
  · rename_i versions answered
    have owes : Owes (ask ⟨cluster, .groups (versions.getD [])⟩ timeout .groups cluster.groups
        .groupsReply (onGroups cluster (versions.getD []))) ([] ++ Progress.calls _) :=
      owes_ask (.refl _) (owes_onGroups cluster _)
    exact owes.noting _

theorem load_onCore :
    (onCore timeout cluster).load (cost cluster.listed.length) ≤ 5 * cluster.listed.length + 2 := by
  unfold onCore
  split
  · simp [Progress.load]
  · rename_i versions answered
    have sound : (Stage.groups (versions.getD [])).Sound cluster := ⟨versions, answered, rfl⟩
    exact load_ask (cost _) .groupsReply (Nat.le_succ_of_le (load_onGroups sound))

section

variable {token : Token} {rest : List Token} {i : Nat} {slot : Slot}
  (next : (token :: rest).Perm (tokensFrom 0 slots)) (there : slots[i]? = some slot)
  (mine : slot.token? i = some token)

include next there mine

/-- Of what was owed, a request that goes on leaves all but its own call. -/
theorem owed_set (other : Slot) :
    (rest ++ (other.token? i).toList).Perm (tokensFrom 0 (slots.set i other)) := by
  obtain ⟨others, perm, each⟩ := tokensFrom_set there 0
  rw [Nat.zero_add, mine] at perm
  have same : rest.Perm others := (next.trans perm).cons_inv
  refine (List.perm_append_comm.trans (same.append_left _)).trans ?_
  simpa using (each other).symm

theorem owes_answerAt (answer : Answer) :
    Owes (answerAt cluster listed slots i answer)
      (rest ++ (answerAt cluster listed slots i answer).calls) :=
  ⟨fun _ => owed_set next there mine (.answered answer), by simp [answerAt, Progress.calls]⟩

theorem owes_beginAt (groupVersion : String) :
    Owes (beginAt timeout cluster listed slots i groupVersion)
      (rest ++ (beginAt timeout cluster listed slots i groupVersion).calls) := by
  unfold beginAt
  split
  · exact (owes_answerAt next there mine _).noting _
  · exact owes_ask (owed_set next there mine .asked) ((owes_answerAt next there mine _).noting _)

end

theorem load_beginAt (count i : Nat) (groupVersion : String) :
    (beginAt timeout cluster listed slots i groupVersion).load (cost count) ≤ 4 := by
  unfold beginAt
  split
  · simp [answerAt, Progress.load, cost]
  · refine load_ask (cost count) (.reply i) ?_
    simp [onResources, answerAt, Progress.load, cost]

/-- Each call that is owed leads to no more than it costs, and leaves the others owed. -/
theorem owes_resume {work : Work τ} (own : work.cluster = cluster)
    (sound : work.stage.Sound cluster) {token : Token} {rest : List Token}
    (next : (token :: rest).Perm work.stage.tokens) :
    Owes (resume timeout work token) (rest ++ (resume timeout work token).calls) ∧
      (resume timeout work token).load (cost cluster.listed.length) <
        cost cluster.listed.length token := by
  obtain ⟨_, stage⟩ := work
  subst own
  rename_i cluster
  cases stage with
  | core =>
    cases List.perm_singleton.1 next
    exact ⟨owes_onCore, Nat.lt_succ_of_le load_onCore⟩
  | groups core =>
    cases List.perm_singleton.1 next
    exact ⟨owes_onGroups cluster core, Nat.lt_succ_of_le (load_onGroups sound)⟩
  | resources listed slots =>
    obtain ⟨i, slot, there, mine⟩ := mem_tokensFrom.1 (next.mem_iff.1 List.mem_cons_self)
    obtain ⟨groupVersion, listed_there⟩ := sound.exists_listed there
    rw [Nat.zero_add] at mine
    cases slot with
    | noticed answer => cases mine
    | waiting =>
      cases mine
      simp only [resume, listed_there, there]
      exact ⟨owes_beginAt next there rfl groupVersion, Nat.lt_succ_of_le (load_beginAt _ _ _)⟩
    | asked =>
      cases mine
      simp only [resume, listed_there, there]
      refine ⟨(owes_answerAt next there rfl _).noting _, ?_⟩
      simp [onResources, answerAt, Progress.load, cost]
    | answered answer =>
      cases mine
      simp only [resume, there]
      refine ⟨owes_settleAt ?_, by simp [Progress.load, cost]⟩
      simpa [Progress.calls, Slot.token?] using owed_set next there rfl (.noticed answer)

theorem owes_of_underway {p : Progress τ (Work τ) Token} {owed : List Token}
    (underway : (source timeout clusters).Underway n p owed) : Owes p owed := by
  induction underway with
  | start =>
    have owes : Owes ((source timeout clusters).start n) ([] ++ Progress.calls _) :=
      owes_ask (.refl _) owes_onCore
    exact owes
  | resume before unfinished next ih =>
    have keeps := keeps_of_course before.course
    exact (owes_resume keeps.own keeps.stage (next.symm.trans (ih.waits unfinished))).1

/-- A survey comes to an end. -/
theorem finite : (source timeout clusters).Finite n (cost (clusters.at n).listed.length) where
  ends underway := (owes_of_underway underway).ends
  cheaper underway unfinished next := by
    have keeps := keeps_of_course underway.course
    have waits := (owes_of_underway underway).waits unfinished
    exact (owes_resume keeps.own keeps.stage (next.symm.trans waits)).2

/-! ## What it ends with -/

theorem course_of_alone {p : Progress τ (Work τ) Token}
    (course : (source timeout ⟨clusters.at n, []⟩).Course 0 p) :
    (source timeout clusters).Course n p := by
  induction course with
  | start => exact .start
  | resume before unfinished token ih => exact ih.resume unfinished token

variable (timeout clusters n) in
theorem load_start : ((source timeout clusters).start n).load
    (cost (clusters.at n).listed.length) ≤ 5 * (clusters.at n).listed.length + 4 :=
  load_ask (cost _) .coreReply (Nat.le_succ_of_le load_onCore)

variable [Clock τ]

/-- With fuel for what is listed, a survey ends with the outcome of its cluster. -/
theorem run_source (timeout : τ) (cluster : Cluster τ) {fuel : Nat}
    (enough : 5 * cluster.listed.length + 4 < fuel) :
    (Fetch.run (source timeout ⟨cluster, []⟩) fuel).state.outcome = some (outcomeOf cluster) := by
  have finite : (source timeout ⟨cluster, []⟩).Finite 0 (cost cluster.listed.length) := finite
  have load := load_start timeout ⟨cluster, []⟩ 0
  rw [Script.at_alone] at load
  obtain ⟨o, ended, p, course, is⟩ := Fetch.run_ends finite (Nat.lt_of_le_of_lt load enough)
  rw [ended, (keeps_of_course course).outcome o is]
  rfl

/-- A survey ends with the outcome of its cluster and with nothing else. -/
theorem yields_iff {o : Outcome} :
    (source timeout clusters).Yields n o ↔ o = outcomeOf (clusters.at n) := by
  constructor
  · rintro ⟨p, course, is⟩
    exact (keeps_of_course course).outcome o is
  · rintro rfl
    have finite : (source timeout ⟨clusters.at n, []⟩).Finite 0 _ := finite
    obtain ⟨o, -, p, course, is⟩ := Fetch.run_ends finite (Nat.lt_succ_self _)
    have outcome := (keeps_of_course (course_of_alone course)).outcome o is
    exact ⟨p, course_of_alone course, outcome ▸ is⟩

end Survey

end ApiCatalog
