/-
# ApiCatalog.Survey -- enumerating a cluster

A survey asks for the versions of the core group, then for the other groups, and
then for the resources of every listed group-version at once: the core versions
first, repeats kept.  Of the core versions only `v1` has resources to ask for;
any other is left out.

It is all or nothing.  A listing that fails ends the survey.  Of the resource
requests every one is waited for; if some fail, the survey fails with the
failures of all of them (`conclude`), else it answers with the listings in the
order in which their group-versions were listed, whichever reply came first.
-/
import ApiCatalog.Cluster
import ApiCatalog.Table

namespace ApiCatalog

set_option autoImplicit false

namespace Survey

/-- What a resource request answered; `none` where there was nothing to ask for. -/
abbrev Answer := Except Failure (Option Listing)

/-- The state of one resource request. -/
inductive Slot where
  /-- It has not gone out. -/
  | waiting
  /-- It has gone out. -/
  | asked
  /-- It has been answered. -/
  | answered (answer : Answer)
  /-- The survey has taken notice of the answer. -/
  | noticed (answer : Answer)

/-- Where a survey stands. -/
inductive Stage where
  | core
  | groups (core : List String)
  | resources (listed : List String) (slots : List Slot)

/-- What a survey is called with. -/
inductive Token where
  | coreReply
  | groupsReply
  | begin (i : Nat)
  | reply (i : Nat)
  | notice (i : Nat)
deriving DecidableEq, Repr

/-- A survey in progress. -/
structure Work (τ : Type) where
  cluster : Cluster τ
  stage : Stage

/-- The only version of the core group that has resources to ask for. -/
def coreVersion : String := "v1"

/-- The request for the resources of a group-version, cut at its first slash. -/
def request? (groupVersion : String) : Option Request :=
  match Text.cut? '/' groupVersion with
  | some (group, version) => some (.groupResources group version)
  | none => if groupVersion = coreVersion then some .coreResources else none

/-- The failures of the group-versions that failed; of repeated ones the last counts. -/
def failures (listed : List String) (answers : List Answer) : Table String Failure :=
  Table.ofList ((listed.zip answers).filterMap fun
    | (groupVersion, .error why) => some (groupVersion, why)
    | _ => none)

/-- The listings that were answered, in order. -/
def listings (answers : List Answer) : List Listing :=
  answers.filterMap fun
    | .ok listing => listing
    | .error _ => none

/-- The outcome of a survey whose requests are all answered. -/
def conclude (listed : List String) (answers : List Answer) : Outcome :=
  match (failures listed answers).entries with
  | [] => .ok (some (listings answers))
  | failed => .error (.incomplete failed)

variable {τ : Type}

/-- What a survey says when it ends. -/
def closing (listed : List String) (answers : List Answer) : List (SourceNote τ) :=
  let failed := (failures listed answers).keys
  if failed = [] then [] else [.groupsFailed (.ofList failed) listed.length]

/-- The answers to all requests, if the survey has taken notice of every one. -/
def noticed? : List Slot → Option (List Answer)
  | [] => some []
  | .noticed answer :: rest => (noticed? rest).map (answer :: ·)
  | _ :: _ => none

/-- Go on once the requests are settled, or wait. -/
def settleAt (cluster : Cluster τ) (listed : List String) (slots : List Slot) :
    Progress τ (Work τ) Token :=
  let work := ⟨cluster, .resources listed slots⟩
  match noticed? slots with
  | none => { work }
  | some answers =>
    { work, notes := closing listed answers, outcome := some (conclude listed answers) }

/-- A listing failed; being cancelled is passed on as it is. -/
def listingFailure (why : Failure) : Failure := if why.isCancelled then why else .unlisted why

/-- The reply to the request for the groups has come. -/
def onGroups (cluster : Cluster τ) (core : List String) : Progress τ (Work τ) Token :=
  match cluster.groups.answer with
  | .error why =>
    { work := ⟨cluster, .groups core⟩
      notes := [.replied]
      outcome := some (.error (listingFailure why)) }
  | .ok groups =>
    let listed := core ++ Cluster.versionsOf groups
    let next := settleAt cluster listed (listed.map fun _ => .waiting)
    { next with
      turns := (List.range listed.length).map fun i => (.begin i, 0)
      notes := .replied :: next.notes }

/-- Send out a request; `onReply` is what its reply leads to, at once if there is no delay. -/
def ask {α : Type} (work : Work τ) (timeout : τ) (request : Request) (reply : Reply τ α)
    (token : Token) (onReply : Progress τ (Work τ) Token) : Progress τ (Work τ) Token :=
  match reply.delay with
  | some delay => { work, delays := [(delay, token)], notes := [.asked request timeout] }
  | none => { onReply with notes := .asked request timeout :: onReply.notes }

/-- The reply to the request for the core versions has come. -/
def onCore (timeout : τ) (cluster : Cluster τ) : Progress τ (Work τ) Token :=
  match cluster.coreVersions.answer with
  | .error why =>
    { work := ⟨cluster, .core⟩
      notes := [.replied]
      outcome := some (.error (listingFailure why)) }
  | .ok versions =>
    let core := versions.getD []
    let next := ask ⟨cluster, .groups core⟩ timeout .groups cluster.groups .groupsReply
      (onGroups cluster core)
    { next with notes := .replied :: next.notes }

/-- The reply to the resource request at a place of what is listed. -/
def replyAt (cluster : Cluster τ) (listed : List String) (i : Nat) (groupVersion : String) :
    Reply τ ResourceList :=
  cluster.resourcesOf groupVersion ((listed.take i).count groupVersion)

/-- A resource request is answered; the survey takes notice some turns later. -/
def answerAt (cluster : Cluster τ) (listed : List String) (slots : List Slot) (i : Nat)
    (answer : Answer) : Progress τ (Work τ) Token where
  work := ⟨cluster, .resources listed (slots.set i (.answered answer))⟩
  turns := [(.notice i, 1)]

/-- The reply to a resource request has come. -/
def onResources (cluster : Cluster τ) (listed : List String) (slots : List Slot) (i : Nat)
    (groupVersion : String) : Progress τ (Work τ) Token :=
  let answer := (replyAt cluster listed i groupVersion).answer.bind (·.listing groupVersion)
  { answerAt cluster listed slots i (answer.map some) with notes := [.replied] }

/-- A resource request goes out, or there is nothing to ask for. -/
def beginAt (timeout : τ) (cluster : Cluster τ) (listed : List String) (slots : List Slot)
    (i : Nat) (groupVersion : String) : Progress τ (Work τ) Token :=
  match request? groupVersion with
  | none =>
    { answerAt cluster listed slots i (.ok none) with notes := [.coreVersionIgnored groupVersion] }
  | some request =>
    ask ⟨cluster, .resources listed (slots.set i .asked)⟩ timeout request
      (replyAt cluster listed i groupVersion) (.reply i)
      (onResources cluster listed slots i groupVersion)

/-- Go on with a survey. -/
def resume (timeout : τ) (work : Work τ) (token : Token) : Progress τ (Work τ) Token :=
  match work.stage, token with
  | .core, .coreReply => onCore timeout work.cluster
  | .groups core, .groupsReply => onGroups work.cluster core
  | .resources listed slots, .begin i =>
    match listed[i]?, slots[i]? with
    | some groupVersion, some .waiting => beginAt timeout work.cluster listed slots i groupVersion
    | _, _ => { work }
  | .resources listed slots, .reply i =>
    match listed[i]?, slots[i]? with
    | some groupVersion, some .asked => onResources work.cluster listed slots i groupVersion
    | _, _ => { work }
  | .resources listed slots, .notice i =>
    match slots[i]? with
    | some (.answered answer) =>
      settleAt work.cluster listed (slots.set i (.noticed answer))
    | _ => { work }
  | _, _ => { work }

/-- The timeout of requests where no other is configured, in seconds. -/
def usualTimeout : Float := 10.0

/-- The survey of clusters: fetch after fetch meets the next one of a script. -/
def source (timeout : τ) (clusters : Script (Cluster τ)) : Source τ (Work τ) Token where
  start i :=
    let cluster := clusters.at i
    ask ⟨cluster, .core⟩ timeout .coreVersions cluster.coreVersions .coreReply
      (onCore timeout cluster)
  resume := resume timeout

end Survey

end ApiCatalog
