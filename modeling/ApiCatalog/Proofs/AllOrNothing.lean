/-
# ApiCatalog.Proofs.AllOrNothing -- a survey answers with everything or with a failure

`Surveyed cluster outcome` says in terms of the replies of a cluster what becomes
of its survey:

* a listing of group-versions that fails ends it, with the failure itself if that
  is a cancellation, and else with one that names no group-version;
* if a reply for resources is a failure or cannot be read, the outcome names
  exactly the group-versions with such a reply, each with its failure, the last
  one where it was asked for repeatedly (`LastRefused`);
* else the outcome has a listing for each request, in order, repeats kept, under
  the name that its reply goes by and with a record for each item (`Serves`,
  `ResourceList.GoesBy`, `Item.Gives`).

`survey_all_or_nothing`: every survey ends, and so, with whichever delays the
replies come and in whichever order the survey is called.
-/
import ApiCatalog.Proofs.Runs
import ApiCatalog.Proofs.Surveys
import ApiCatalog.Proofs.Tables

namespace ApiCatalog

set_option autoImplicit false

/-! ## Items and their records -/

/-- The value of a field, if it is there and not null. -/
def Field.value? {α : Type} : Field α → Option α
  | .given value => some value
  | _ => none

namespace Item

/-- The item has no name or no kind, not even null. -/
def Lacks (item : Item) : Prop := item.name = .absent ∨ item.kind = .absent

/-- The record of an item: the name and the kind as they are, and blanks for what is not there. -/
structure Gives (item : Item) (record : Record) : Prop where
  readable : ¬ item.Lacks
  name : record.name = item.name.value?
  kind : record.kind = item.kind.value?
  group : record.group = item.group.getD ""
  version : record.version = item.version.getD ""
  namespaced : record.namespaced = item.namespaced.getD false
  verbs : record.verbs = item.verbs.getD []
  shortNames : record.shortNames = item.shortNames.getD []
  singularName : record.singularName = item.singularName.getD ""
  categories : record.categories = item.categories.getD []

theorem record_eq_error_iff {item : Item} {why : Failure} :
    item.record = .error why ↔ item.Lacks ∧ why = .missingField := by
  unfold record Lacks
  cases item.name <;> cases item.kind <;>
    simp [Field.read, bind, Except.bind, pure, Except.pure, eq_comm]

theorem record_eq_ok_iff {item : Item} {record : Record} :
    item.record = .ok record ↔ item.Gives record := by
  constructor
  · unfold Item.record
    cases name : item.name <;> cases kind : item.kind <;>
      simp only [Field.read, bind, Except.bind, pure, Except.pure, reduceCtorEq, false_implies] <;>
      rintro ⟨rfl⟩ <;>
      exact ⟨by simp [Lacks, name, kind], by simp [Field.value?, name],
        by simp [Field.value?, kind], rfl, rfl, rfl, rfl, rfl, rfl, rfl⟩
  · rintro ⟨readable, name, kind, group, version, namespaced, verbs, shortNames, singularName,
      categories⟩
    cases record
    simp only at name kind group version namespaced verbs shortNames singularName categories
    subst name kind group version namespaced verbs shortNames singularName categories
    unfold Item.record
    cases name : item.name <;> cases kind : item.kind <;>
      simp_all [Lacks, Field.read, Field.value?, bind, Except.bind, pure, Except.pure]

theorem records_eq_error_iff {items : List Item} {why : Failure} :
    records items = .error why ↔ (∃ item ∈ items, item.Lacks) ∧ why = .missingField := by
  induction items with
  | nil => simp [records]
  | cons item rest ih =>
    cases first : item.record with
    | error other =>
      obtain ⟨lacks, rfl⟩ := record_eq_error_iff.1 first
      simp [records, first, bind, Except.bind, lacks, eq_comm]
    | ok record =>
      have readable := (record_eq_ok_iff.1 first).readable
      cases later : records rest with
      | error other =>
        rw [later] at ih
        simpa [records, first, later, bind, Except.bind, readable] using ih
      | ok records' =>
        rw [later] at ih
        simpa [records, first, later, bind, Except.bind, pure, Except.pure, readable] using ih

theorem records_eq_ok_iff {items : List Item} {given : List Record} :
    records items = .ok given ↔ List.Forall₂ Gives items given := by
  induction items generalizing given with
  | nil => simp [records, eq_comm]
  | cons item rest ih =>
    cases first : item.record with
    | error other =>
      have lacks := (record_eq_error_iff.1 first).1
      simp only [records, first, bind, Except.bind, reduceCtorEq, false_iff]
      rintro (_ | ⟨gives, -⟩)
      exact gives.readable lacks
    | ok record =>
      cases given with
      | nil =>
        cases later : records rest <;>
          simp [records, first, later, bind, Except.bind, pure, Except.pure]
      | cons record' given =>
        rw [List.forall₂_cons, ← record_eq_ok_iff, ← ih, first]
        cases later : records rest <;>
          simp [records, first, later, bind, Except.bind, pure, Except.pure]

end Item

/-! ## Replies and their names -/

/-- The group-version that a reply goes by: the one that it names, but the one that was asked for if
it names none or a blank one. -/
inductive ResourceList.GoesBy (reply : ResourceList) (asked : String) : String → Prop
  | named {name : String} (own : reply.groupVersion = some name) (nonblank : name ≠ "") :
      GoesBy reply asked name
  | unnamed (missing : reply.groupVersion = none) : GoesBy reply asked asked
  | blank (empty : reply.groupVersion = some "") : GoesBy reply asked asked

theorem ResourceList.goesBy_iff {reply : ResourceList} {asked text : String} :
    reply.GoesBy asked text ↔ reply.nameOr asked = text := by
  unfold nameOr
  constructor
  · rintro (⟨own, nonblank⟩ | missing | empty)
    · rw [own]
      exact if_neg nonblank
    · rw [missing]
    · rw [empty]
      exact if_pos rfl
  · rintro rfl
    cases given : reply.groupVersion with
    | none => exact .unnamed given
    | some name =>
      by_cases blank : name = ""
      · simp only [blank]
        exact .blank (blank ▸ given)
      · simp only [blank]
        exact .named given blank

/-- A reply goes by one group-version only. -/
theorem ResourceList.GoesBy.unique {reply : ResourceList} {asked text text' : String}
    (first : reply.GoesBy asked text) (second : reply.GoesBy asked text') : text = text' :=
  (goesBy_iff.1 first).symm.trans (goesBy_iff.1 second)

/-! ## Requests for resources -/

namespace Survey

variable {τ : Type}

/-- A group-version has resources to ask for. -/
def Asks (groupVersion : String) : Prop := '/' ∈ groupVersion.toList ∨ groupVersion = "v1"

instance : DecidablePred Asks := fun _ => inferInstanceAs (Decidable (_ ∨ _))

/-- A request for the resources of a group-version, and what it is replied. -/
abbrev Inquiry := String × Except Failure ResourceList

/-- The reply at each place of what is listed. -/
def replies (cluster : Cluster τ) (listed : List String) : List Inquiry :=
  listed.mapIdx fun i groupVersion => (groupVersion, (replyAt cluster listed i groupVersion).answer)

/-- The requests for what is listed, in order, repeats kept. -/
def inquiries (cluster : Cluster τ) (listed : List String) : List Inquiry :=
  (replies cluster listed).filter fun inquiry => Asks inquiry.1

/-- The reply is a failure, or one of its items cannot be read. -/
inductive Refuses : Inquiry → Failure → Prop
  | failed (groupVersion : String) (why : Failure) : Refuses (groupVersion, .error why) why
  | unreadable (groupVersion : String) (reply : ResourceList) {item : Item}
      (there : item ∈ reply.items.getD []) (lacks : item.Lacks) :
      Refuses (groupVersion, .ok reply) .missingField

/-- The reply gives a listing under the group-version that it goes by, with a record of each item. -/
inductive Serves : Inquiry → Listing → Prop
  | of_items {groupVersion text : String} {reply : ResourceList} {records : List Record}
      (goesBy : reply.GoesBy groupVersion text)
      (each : List.Forall₂ Item.Gives (reply.items.getD []) records) :
      Serves (groupVersion, .ok reply) ⟨some text, some records⟩

/-- The last request for a group-version that was refused, and why it was. -/
def LastRefused (inquiries : List Inquiry) (groupVersion : String) (why : Failure) : Prop :=
  ∃ before answer after, inquiries = before ++ (groupVersion, answer) :: after ∧
    Refuses (groupVersion, answer) why ∧
    ∀ later why', (groupVersion, later) ∈ after → ¬ Refuses (groupVersion, later) why'

/-- What an inquiry comes to. -/
def Inquiry.listing (inquiry : Inquiry) : Except Failure Listing :=
  inquiry.2.bind (·.listing inquiry.1)

@[simp] theorem Inquiry.listing_error (groupVersion : String) (why : Failure) :
    Inquiry.listing (groupVersion, .error why) = .error why := rfl

@[simp] theorem Inquiry.listing_ok (groupVersion : String) (reply : ResourceList) :
    Inquiry.listing (groupVersion, .ok reply) =
      (Item.records (reply.items.getD [])).map fun records =>
        ⟨some (reply.nameOr groupVersion), some records⟩ := rfl

theorem listing_eq_error_iff {inquiry : Inquiry} {why : Failure} :
    inquiry.listing = .error why ↔ Refuses inquiry why := by
  obtain ⟨groupVersion, answer⟩ := inquiry
  constructor
  · intro refused
    cases answer with
    | error other =>
      cases refused
      exact .failed groupVersion why
    | ok reply =>
      cases read : Item.records (reply.items.getD []) with
      | error other =>
        obtain ⟨⟨item, there, lacks⟩, rfl⟩ := Item.records_eq_error_iff.1 read
        have same : Failure.missingField = why := by
          simpa [read, Except.map] using refused
        exact same ▸ .unreadable groupVersion reply there lacks
      | ok records =>
        simp [read, Except.map] at refused
  · rintro (⟨_, _⟩ | ⟨_, reply, there, lacks⟩)
    · rfl
    · have refused := Item.records_eq_error_iff.2 ⟨⟨_, there, lacks⟩, rfl⟩
      simp [refused, Except.map]

theorem listing_eq_ok_iff {inquiry : Inquiry} {listing : Listing} :
    inquiry.listing = .ok listing ↔ Serves inquiry listing := by
  obtain ⟨groupVersion, answer⟩ := inquiry
  constructor
  · intro served
    cases answer with
    | error why => cases served
    | ok reply =>
      cases read : Item.records (reply.items.getD []) with
      | error other =>
        simp [read, Except.map] at served
      | ok records =>
        have same : ⟨some (reply.nameOr groupVersion), some records⟩ = listing := by
          simpa [read, Except.map] using served
        exact same ▸ .of_items (ResourceList.goesBy_iff.2 rfl) (Item.records_eq_ok_iff.1 read)
  · rintro ⟨goesBy, each⟩
    have read := Item.records_eq_ok_iff.2 each
    simp [read, Except.map, ResourceList.goesBy_iff.1 goesBy]

/-! ## Conclusions -/

theorem isSome_request?_iff {groupVersion : String} :
    (request? groupVersion).isSome ↔ Asks groupVersion := by
  unfold request? Asks
  split
  · rename_i group version cut
    have separated : '/' ∈ groupVersion.toList := by
      rw [(Text.cut?_eq_some_iff.1 cut).1]
      simp
    simp [separated]
  · rename_i uncut
    have clear := Text.cut?_eq_none_iff.1 uncut
    split <;> simp_all [coreVersion]

/-- What is answered at a place of what is listed. -/
def Inquiry.answer (inquiry : Inquiry) : Answer :=
  if Asks inquiry.1 then inquiry.listing.map some else .ok none

/-- The failure of an inquiry, under its group-version. -/
def Inquiry.refusal? (inquiry : Inquiry) : Option (String × Failure) :=
  match inquiry.listing with
  | .error why => some (inquiry.1, why)
  | .ok _ => none

theorem Inquiry.refusal?_eq_some_iff {inquiry : Inquiry} {groupVersion : String} {why : Failure} :
    inquiry.refusal? = some (groupVersion, why) ↔
      inquiry.1 = groupVersion ∧ Refuses inquiry why := by
  rw [← listing_eq_error_iff, Inquiry.refusal?]
  cases inquiry.listing <;> simp

theorem map_fst_replies (cluster : Cluster τ) (listed : List String) :
    (replies cluster listed).map Prod.fst = listed := by
  simp [replies, List.mapIdx_eq_zipIdx_map, Function.comp_def]

theorem answers_eq (cluster : Cluster τ) :
    answers cluster = (replies cluster cluster.listed).map Inquiry.answer := by
  rw [answers, replies, List.mapIdx_eq_zipIdx_map, List.mapIdx_eq_zipIdx_map, List.map_map]
  congr
  funext place
  simp only [answerTo, Function.comp_apply, Inquiry.answer, Inquiry.listing, ← isSome_request?_iff]
  cases request? place.1 <;> simp

/-- The failures are those of the requests that went out. -/
theorem failures_answers (cluster : Cluster τ) :
    failures cluster.listed (answers cluster) =
      .ofList ((inquiries cluster cluster.listed).filterMap Inquiry.refusal?) := by
  have zip : cluster.listed.zip (answers cluster) =
      (replies cluster cluster.listed).map fun inquiry => (inquiry.1, inquiry.answer) := by
    rw [answers_eq, ← List.zip_map', map_fst_replies]
  rw [failures, zip, List.filterMap_map, inquiries, List.filterMap_filter]
  congr
  funext inquiry
  simp only [Function.comp_apply, Inquiry.answer, Inquiry.refusal?]
  by_cases asks : Asks inquiry.1
  · cases inquiry.listing <;> simp [asks, Except.map]
  · simp [asks]

/-- The listings are those of the requests that went out. -/
theorem listings_answers (cluster : Cluster τ) :
    listings (answers cluster) =
      (inquiries cluster cluster.listed).filterMap fun inquiry => inquiry.listing.toOption := by
  rw [listings, answers_eq, List.filterMap_map, inquiries, List.filterMap_filter]
  congr
  funext inquiry
  simp only [Function.comp_apply, Inquiry.answer]
  by_cases asks : Asks inquiry.1
  · cases inquiry.listing <;> simp [asks, Except.map, Except.toOption]
  · simp [asks]

/-- Under each group-version stands the failure of its last request that was refused. -/
theorem get?_refusals_iff {inquiries : List Inquiry} {groupVersion : String} {why : Failure} :
    (Table.ofList (inquiries.filterMap Inquiry.refusal?)).get? groupVersion = some why ↔
      LastRefused inquiries groupVersion why := by
  rw [Table.get?_ofList_eq_some_iff]
  constructor
  · rintro ⟨before, after, split, last⟩
    obtain ⟨first, rest, rfl, rfl, tail⟩ := List.filterMap_eq_append_iff.1 split
    obtain ⟨between, inquiry, later, rfl, -, refusal, rfl⟩ := List.filterMap_eq_cons_iff.1 tail
    obtain ⟨rfl, refused⟩ := Inquiry.refusal?_eq_some_iff.1 refusal
    refine ⟨first ++ between, inquiry.2, later, by simp, refused, fun answer why' mem again => ?_⟩
    refine last (inquiry.1, why') (List.mem_filterMap.2 ⟨_, mem, ?_⟩) rfl
    exact Inquiry.refusal?_eq_some_iff.2 ⟨rfl, again⟩
  · rintro ⟨before, answer, after, rfl, refused, last⟩
    have refusal := Inquiry.refusal?_eq_some_iff.2 ⟨rfl, refused⟩
    refine ⟨before.filterMap Inquiry.refusal?, after.filterMap Inquiry.refusal?,
      by simp [refusal], ?_⟩
    rintro ⟨other, why'⟩ mem rfl
    obtain ⟨⟨name, later⟩, there, again⟩ := List.mem_filterMap.1 mem
    obtain ⟨same, refused'⟩ := Inquiry.refusal?_eq_some_iff.1 again
    cases same
    exact last later why' there refused'

/-- The group-versions with a failure are those of the requests that were refused. -/
theorem mem_keys_refusals_iff {inquiries : List Inquiry} {groupVersion : String} :
    groupVersion ∈ (Table.ofList (inquiries.filterMap Inquiry.refusal?)).keys ↔
      ∃ answer why, (groupVersion, answer) ∈ inquiries ∧ Refuses (groupVersion, answer) why := by
  rw [Table.mem_keys_ofList]
  constructor
  · intro mem
    obtain ⟨⟨_, why⟩, pair, rfl⟩ := List.mem_map.1 mem
    obtain ⟨⟨_, answer⟩, there, refusal⟩ := List.mem_filterMap.1 pair
    obtain ⟨rfl, refused⟩ := Inquiry.refusal?_eq_some_iff.1 refusal
    exact ⟨answer, why, there, refused⟩
  · rintro ⟨answer, why, there, refused⟩
    have refusal := Inquiry.refusal?_eq_some_iff.2 ⟨rfl, refused⟩
    exact List.mem_map.2 ⟨_, List.mem_filterMap.2 ⟨_, there, refusal⟩, rfl⟩

/-- Where nothing is refused, each request is served. -/
theorem forall₂_serves {inquiries : List Inquiry}
    (nothing : inquiries.filterMap Inquiry.refusal? = []) :
    List.Forall₂ Serves inquiries
      (inquiries.filterMap fun inquiry => inquiry.listing.toOption) := by
  induction inquiries with
  | nil => exact .nil
  | cons inquiry rest ih =>
    cases answered : inquiry.listing with
    | error why => simp [Inquiry.refusal?, answered] at nothing
    | ok listing =>
      simp only [List.filterMap_cons, Inquiry.refusal?, answered] at nothing
      simp only [List.filterMap_cons, answered, Except.toOption]
      exact .cons (listing_eq_ok_iff.1 answered) (ih nothing)

/-! ## All or nothing -/

/-- A listing of group-versions fails; the second is only asked for after the first. -/
inductive Unlisted (cluster : Cluster τ) (why : Failure) : Prop
  | core (failed : cluster.coreVersions.answer = .error why)
  | groups {versions : Option (List String)} (answered : cluster.coreVersions.answer = .ok versions)
      (failed : cluster.groups.answer = .error why)

/-- The group-versions that are listed: the core versions, then those of every group in order,
where what is null counts as empty. -/
inductive Lists (cluster : Cluster τ) : List String → Prop
  | of_answers {versions : Option (List String)} {groups : Option (List (Option (List String)))}
      (core : cluster.coreVersions.answer = .ok versions)
      (others : cluster.groups.answer = .ok groups) :
      Lists cluster (versions.getD [] ++ (groups.getD []).flatMap (·.getD []))

/-- What becomes of a survey, by the replies of its cluster. -/
inductive Surveyed (cluster : Cluster τ) : Outcome → Prop
  | cancelled (stopped : Unlisted cluster .cancelled) : Surveyed cluster (.error .cancelled)
  | unlisted {why : Failure} (stopped : Unlisted cluster why) (other : why ≠ .cancelled) :
      Surveyed cluster (.error (.unlisted why))
  | incomplete {listed : List String} (lists : Lists cluster listed) (failed : Table String Failure)
      (refused : ∃ inquiry ∈ inquiries cluster listed, ∃ why, Refuses inquiry why)
      (keys : ∀ groupVersion, groupVersion ∈ failed.keys ↔
        ∃ answer why, (groupVersion, answer) ∈ inquiries cluster listed ∧
          Refuses (groupVersion, answer) why)
      (last : ∀ groupVersion why, failed.get? groupVersion = some why ↔
        LastRefused (inquiries cluster listed) groupVersion why) :
      Surveyed cluster (.error (.incomplete failed.entries))
  | complete {listed : List String} (lists : Lists cluster listed) (listings : List Listing)
      (each : List.Forall₂ Serves (inquiries cluster listed) listings) :
      Surveyed cluster (.ok (some listings))

theorem unlisted?_eq_some_iff {cluster : Cluster τ} {why : Failure} :
    cluster.unlisted? = some why ↔ Unlisted cluster why := by
  constructor
  · intro stopped
    simp only [Cluster.unlisted?] at stopped
    split at stopped <;> cases stopped
    · rename_i failed
      exact .core failed
    · rename_i answered failed
      exact .groups answered failed
  · rintro (failed | ⟨answered, failed⟩)
    · simp [Cluster.unlisted?, failed]
    · simp [Cluster.unlisted?, answered, failed]

theorem lists_of_unlisted? {cluster : Cluster τ} (listable : cluster.unlisted? = none) :
    Lists cluster cluster.listed := by
  simp only [Cluster.unlisted?] at listable
  split at listable <;> cases listable
  rename_i versions groups core others
  have lists := Lists.of_answers core others
  simpa [Cluster.listed, core, others, Except.toOption, Cluster.versionsOf] using lists

/-- The outcome of a cluster is all that it serves, or else a failure. -/
theorem surveyed (cluster : Cluster τ) : Surveyed cluster (outcomeOf cluster) := by
  unfold outcomeOf
  split
  · rename_i why stopped
    have stopped := unlisted?_eq_some_iff.1 stopped
    by_cases cancelled : why = .cancelled
    · subst cancelled
      exact .cancelled stopped
    · have passed : why.isCancelled = false := by
        simpa [← Failure.isCancelled_iff] using cancelled
      simpa [listingFailure, passed] using Surveyed.unlisted stopped cancelled
  · rename_i listable
    have lists := lists_of_unlisted? listable
    rw [conclude, failures_answers]
    split
    · rename_i nothing
      rw [listings_answers]
      exact .complete lists _ (forall₂_serves (Table.entries_ofList_eq_nil_iff.1 nothing))
    · rename_i something
      refine .incomplete lists _ ?_ (fun _ => mem_keys_refusals_iff) fun _ _ => get?_refusals_iff
      obtain ⟨⟨groupVersion, why⟩, mem⟩ := List.exists_mem_of_ne_nil _
        fun nothing => something (Table.entries_ofList_eq_nil_iff.2 nothing)
      obtain ⟨inquiry, there, refusal⟩ := List.mem_filterMap.1 mem
      exact ⟨inquiry, there, why, (Inquiry.refusal?_eq_some_iff.1 refusal).2⟩

variable [Clock τ]

/-- A survey ends, whatever the delays of the replies are, and it ends with all that its cluster
serves or else with a failure; so does every fetch of a source of surveys, in whichever order it is
called. -/
theorem survey_all_or_nothing (timeout : τ) (clusters : Script (Cluster τ)) (n : Nat) :
    ∃ outcome, Surveyed (clusters.at n) outcome ∧
      (∃ enough, ∀ fuel ≥ enough,
        (Fetch.run (source timeout ⟨clusters.at n, []⟩) fuel).state.outcome = some outcome) ∧
      ∀ o, (source timeout clusters).Yields n o ↔ o = outcome := by
  refine ⟨outcomeOf (clusters.at n), surveyed _, ?_, fun o => yields_iff⟩
  exact ⟨5 * (clusters.at n).listed.length + 5, fun fuel enough => run_source timeout _ enough⟩

/-- A deployment as it is served. -/
def deployments : Item where
  name := .given "deployments"
  kind := .given "Deployment"
  group := none
  version := none
  namespaced := true
  verbs := none
  shortNames := none
  singularName := none
  categories := none

/-- A cluster that lists a core version without resources and two group-versions; the reply for the
second goes by a name of its own. -/
def serving : Cluster Int where
  coreVersions := ⟨none, .ok (some ["v2"])⟩
  groups := ⟨some 1, .ok (some [some ["apps/v1"], none, some ["batch/v1"]])⟩
  resources :=
    [("batch/v1", ⟨none, .ok ⟨some "batch/v2", none⟩⟩),
      ("apps/v1", ⟨some 3, .ok ⟨some "", some [deployments]⟩⟩)]

/-- A cluster that lists a group-version twice and fails twice to serve it: the first reply is a
failure, and the second has an item without a kind. -/
def failing : Cluster Int where
  coreVersions := ⟨none, .ok none⟩
  groups := ⟨some 1, .ok (some [some ["apps/v1", "batch/v1", "apps/v1"]])⟩
  resources :=
    [("apps/v1", ⟨some 3, .error (.raised .timeout "timed out")⟩),
      ("apps/v1", ⟨none, .ok ⟨none, some [{ deployments with kind := .absent }]⟩⟩),
      ("batch/v1", ⟨none, .ok ⟨none, some []⟩⟩)]

/-- The first cluster is served in the order of its listing, and under the names that its replies go
by.  Of the second nothing is served, and the later of the two failures counts. -/
theorem survey_all_or_nothing_repeated :
    let served : Outcome := .ok (some
      [⟨"apps/v1", some [{ name := "deployments", kind := "Deployment", namespaced := true }]⟩,
        ⟨"batch/v2", some []⟩])
    let refused : Outcome := .error (.incomplete [("apps/v1", .missingField)])
    Surveyed serving served ∧ Surveyed failing refused ∧
      (∃ enough, ∀ fuel ≥ enough,
        (Fetch.run (source 10 ⟨serving, []⟩) fuel).state.outcome = some served) ∧
      ∃ enough, ∀ fuel ≥ enough,
        (Fetch.run (source 10 ⟨failing, []⟩) fuel).state.outcome = some refused := by
  intro served refused
  obtain ⟨_, surveyed, ends, only⟩ := survey_all_or_nothing 10 ⟨serving, [failing]⟩ 0
  obtain ⟨_, surveyed', ends', only'⟩ := survey_all_or_nothing 10 ⟨serving, [failing]⟩ 1
  obtain rfl := (only served).1 (yields_iff.2 rfl)
  obtain rfl := (only' refused).1 (yields_iff.2 rfl)
  exact ⟨surveyed, surveyed', ends, ends'⟩

end Survey

end ApiCatalog
