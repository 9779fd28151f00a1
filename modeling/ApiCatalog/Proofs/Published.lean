/-
# ApiCatalog.Proofs.Published -- what a published catalogue holds of its cluster

A strict keeper that surveys clusters publishes a snapshot only if every resource
request was served.  The snapshot then has an entry for every name that the
replies give, and in it the top-level resources of the last reply of that name
(`Survey.Catalogues`).

So nothing is missing, as long as replies go by the group-versions that were
asked for (`Survey.Complete`).  But a reply that names another group-version is
filed under that one, and then nothing is found under the one that was listed
(`refresh_catalogues_misnamed`).
-/
import ApiCatalog.Proofs.AllOrNothing
import ApiCatalog.Proofs.EntryIndex
import ApiCatalog.Proofs.Outcomes

namespace ApiCatalog

set_option autoImplicit false

/-! ## Filing what was served -/

/-- A strict reader files a listing or refuses it. -/
theorem Snapshot.exists_files_of_assess {text : String} {records : List Record}
    (kept : ∀ why, assess true ⟨some text, some records⟩ ≠ .refused why) :
    ∃ gv entry orphans, assess true ⟨some text, some records⟩ = .filed text entry orphans ∧
      entry.Files gv text records := by
  cases readable : GroupVersion.parse text with
  | error why => exact absurd (by simp [assess, readable]) (kept (.malformed why))
  | ok gv =>
    obtain ⟨records', same, filed⟩ := filed_of_unrefused rfl readable kept
    cases same
    exact ⟨gv, _, _, filed, Entry.files_ofResolved gv text records⟩

/-- A reply has an item of the name, and the name has no slash. -/
def ResourceList.TopLevel (reply : ResourceList) (name : String) : Prop :=
  '/' ∉ name.toList ∧ ∃ item ∈ reply.items.getD [], item.name = .given name

namespace Survey

theorem names_of_gives {items : List Item} {records : List Record}
    (each : List.Forall₂ Item.Gives items records) (name : String) :
    Record.Names records name ↔ ∃ item ∈ items, item.name = .given name := by
  refine (exists_iff_of_forall₂ each fun {item r} gives => ?_).symm
  rw [gives.name]
  cases item.name <;> simp [Field.value?]

/-- What was served is filed under the name that its reply goes by. -/
def FiledAs (inquiry : Inquiry) (pair : String × Entry) : Prop :=
  ∃ reply, inquiry.2 = .ok reply ∧ reply.GoesBy inquiry.1 pair.1 ∧
    ∀ name, name ∈ pair.2.resources.keys ↔ reply.TopLevel name

theorem forall₂_filings {inquiries : List Inquiry} {listings : List Listing}
    (served : List.Forall₂ Serves inquiries listings)
    (kept : ∀ l ∈ listings, ∀ why, Snapshot.assess true l ≠ .refused why) :
    List.Forall₂ FiledAs inquiries (Snapshot.filings true listings) := by
  induction served with
  | nil => exact .nil
  | cons head tail ih =>
    obtain ⟨goesBy, each⟩ := head
    obtain ⟨gv, entry, orphans, filed, files⟩ :=
      Snapshot.exists_files_of_assess (kept _ List.mem_cons_self)
    have rest := ih fun l mem => kept l (List.mem_cons_of_mem _ mem)
    simp only [Snapshot.filings, List.filterMap_cons, filed]
    refine .cons ⟨_, rfl, goesBy, fun name => ?_⟩ rest
    rw [files.names, names_of_gives each, and_comm]
    rfl

/-! ## Catalogues of replies -/

/-- The last of the replies that go by a name, with what was asked for. -/
def LastNaming (inquiries : List Inquiry) (text groupVersion : String) (reply : ResourceList) :
    Prop :=
  ∃ before after, inquiries = before ++ (groupVersion, .ok reply) :: after ∧
    reply.GoesBy groupVersion text ∧
    ∀ other later, (other, .ok later) ∈ after → ¬ later.GoesBy other text

/-- The entries of a catalogue are the replies to some requests, by their names. -/
structure Catalogues (inquiries : List Inquiry) (entries : Table String Entry) : Prop where
  /-- No request was refused. -/
  served : ∀ inquiry ∈ inquiries, ∃ reply, inquiry.2 = .ok reply
  keys : ∀ text, text ∈ entries.keys ↔
    ∃ groupVersion reply, (groupVersion, .ok reply) ∈ inquiries ∧ reply.GoesBy groupVersion text
  resources : ∀ text entry, entries.get? text = some entry →
    ∃ groupVersion reply, LastNaming inquiries text groupVersion reply ∧
      ∀ name, name ∈ entry.resources.keys ↔ reply.TopLevel name

theorem catalogues_ofList {inquiries : List Inquiry} {pairs : List (String × Entry)}
    (filed : List.Forall₂ FiledAs inquiries pairs) : Catalogues inquiries (.ofList pairs) where
  served inquiry mem := by
    obtain ⟨pair, -, reply, served, -⟩ := (exists_of_forall₂ filed).1 inquiry mem
    exact ⟨reply, served⟩
  keys text := by
    rw [Table.mem_keys_ofList]
    constructor
    · intro mem
      obtain ⟨pair, there, rfl⟩ := List.mem_map.1 mem
      obtain ⟨⟨groupVersion, _⟩, asked, reply, rfl, named, -⟩ :=
        (exists_of_forall₂ filed).2 pair there
      exact ⟨groupVersion, reply, asked, named⟩
    · rintro ⟨groupVersion, reply, asked, goesBy⟩
      obtain ⟨pair, there, reply', same, named, -⟩ := (exists_of_forall₂ filed).1 _ asked
      cases same
      exact List.mem_map.2 ⟨pair, there, named.unique goesBy⟩
  resources text entry read := by
    obtain ⟨before, after, rfl, last⟩ := Table.get?_ofList_eq_some_iff.1 read
    obtain ⟨before', ⟨groupVersion, _⟩, after', rfl, -, ⟨reply, rfl, named, names⟩, rest⟩ :=
      split_of_forall₂ filed
    refine ⟨groupVersion, reply, ⟨before', after', rfl, named, ?_⟩, names⟩
    intro other later mem same
    obtain ⟨pair, there, reply', again, named', -⟩ := (exists_of_forall₂ rest).1 _ mem
    cases again
    exact last pair there (named'.unique same)

/-- Replies go by what was asked for. -/
def Echoes (inquiries : List Inquiry) : Prop :=
  ∀ groupVersion reply, (groupVersion, .ok reply) ∈ inquiries →
    reply.GoesBy groupVersion groupVersion

/-- Under each group-version that was asked for stand the top-level resources of its reply, the last
one where it was asked for repeatedly. -/
def Complete (inquiries : List Inquiry) (entries : Table String Entry) : Prop :=
  ∀ groupVersion answer, (groupVersion, answer) ∈ inquiries →
    ∃ entry, entries.get? groupVersion = some entry ∧
      ∃ before reply after, inquiries = before ++ (groupVersion, .ok reply) :: after ∧
        (∀ later, (groupVersion, later) ∉ after) ∧
        ∀ name, name ∈ entry.resources.keys ↔ reply.TopLevel name

/-- Where replies go by what was asked for, nothing is missing. -/
theorem Catalogues.complete {inquiries : List Inquiry} {entries : Table String Entry}
    (catalogues : Catalogues inquiries entries) (echoes : Echoes inquiries) :
    Complete inquiries entries := by
  intro groupVersion answer asked
  obtain ⟨reply, same⟩ := catalogues.served _ asked
  cases same
  have there : groupVersion ∈ entries.keys :=
    (catalogues.keys _).2 ⟨groupVersion, reply, asked, echoes _ _ asked⟩
  obtain ⟨entry, read⟩ := Option.isSome_iff_exists.1 ((Table.mem_keys_iff _ _).1 there)
  obtain ⟨asked', last, ⟨before, after, split, named, others⟩, names⟩ :=
    catalogues.resources _ _ read
  have own := echoes asked' last (by simp [split])
  obtain rfl := own.unique named
  refine ⟨entry, read, before, last, after, split, fun later mem => ?_, names⟩
  have mem' : (asked', later) ∈ inquiries := by simp [split, mem]
  obtain ⟨reply', same⟩ := catalogues.served _ mem'
  cases same
  exact others asked' reply' mem (echoes _ _ mem')

end Survey

/-! ## What an attempt has published -/

theorem Attempt.verdict?_of_isPublished {τ σ : Type} {a : Attempt τ σ}
    (published : a.isPublished = true) : a.verdict? = some .published := by
  obtain ⟨owner, arrived, stage⟩ := a
  cases stage with
  | ended began ended outcome verdict => cases verdict <;> trivial
  | _ => cases published

namespace Core

variable {τ σ κ : Type} {source : Source τ σ κ} {strict : Bool} {c : Core τ σ} {l : Line τ σ}

/-- What a published attempt has published is what is shown after it. -/
theorem Sound.published (sound : c.Sound source strict l) {n : Nat} {a : Attempt τ σ}
    (there : c.attempts[n]? = some a) (published : a.verdict? = some .published) :
    ∃ began listings entries, source.Yields n (.ok listings) ∧
      (Snapshot.index strict listings).result = .ok entries ∧
      (Ledger.replay strict ((c.attempts.filterMap Attempt.course?).take (n + 1))).snapshot =
        some ⟨entries, began⟩ := by
  obtain ⟨⟨began, outcome⟩, course, verdict⟩ := Option.map_eq_some_iff.1
    ((sound.judged (List.mem_of_getElem? there)).symm.trans published)
  obtain ⟨listings, entries, rfl, indexed, shown⟩ := Ledger.snapshot_after_of_published verdict
    (Ledger.replay strict ((c.attempts.filterMap Attempt.course?).take n)) began
  refine ⟨began, listings, entries, sound.faithful.yields there course, indexed, ?_⟩
  rw [sound.kept.orderly.take_course there course, Ledger.replay_append_singleton]
  exact shown

end Core

namespace World

open Survey

variable {τ : Type} [Clock τ] {timeout : τ} {clusters : Script (Cluster τ)}
  {w : World τ (Work τ) Token}

/-- What a strict keeper publishes of a cluster are the replies to all of its requests, by their
names; so nothing that was listed is missing where replies go by what was asked for. -/
theorem refresh_catalogues (reached : Reachable (source timeout clusters) true w) {n : Nat}
    {a : Attempt τ (Work τ)} (there : w.state.attempts[n]? = some a)
    (published : a.verdict? = some .published) :
    (∀ id, a.owner = .caller id → w.state.answerOf id = some (.truth true)) ∧
    ∃ began entries listed,
      (Ledger.replay true (w.state.course.take (n + 1))).snapshot = some ⟨entries, began⟩ ∧
      (w.state.completed = n + 1 → w.state.snapshot = some ⟨entries, began⟩) ∧
      Lists (clusters.at n) listed ∧
      Catalogues (inquiries (clusters.at n) listed) entries ∧
      (Echoes (inquiries (clusters.at n) listed) →
        Complete (inquiries (clusters.at n) listed) entries) := by
  obtain ⟨l, sound⟩ := reached.sound
  obtain ⟨began, listings, entries, yields, indexed, shown⟩ := sound.published there published
  have surveyed := surveyed (clusters.at n)
  rw [← yields_iff.1 yields] at surveyed
  cases surveyed with
  | @complete listed lists served each =>
    obtain ⟨kept, rfl⟩ := Snapshot.result_index_eq_ok_iff.1 indexed
    have catalogues := catalogues_ofList (forall₂_filings each kept)
    refine ⟨fun id mine => ?_, began, _, listed, shown, fun completed => ?_, lists, catalogues,
      catalogues.complete⟩
    · rw [answerOf_eq sound.kept (List.mem_of_getElem? there) mine, published]
      rfl
    · have ledger := ledger_of_run reached (.refl w)
      rw [completed] at ledger
      exact (congrArg Ledger.snapshot ledger).trans shown

/-- A cluster with one group-version, whose reply goes by some name. -/
def servingAs (name : String) : Cluster Int where
  coreVersions := ⟨none, .ok none⟩
  groups := ⟨some 2, .ok (some [some ["apps/v1"]])⟩
  resources := [("apps/v1", ⟨some 1, .ok ⟨some name, some [deployments]⟩⟩)]

theorem lists_servingAs (name : String) : Lists (servingAs name) ["apps/v1"] :=
  @Lists.of_answers _ (servingAs name) none (some [some ["apps/v1"]]) rfl rfl

theorem inquiries_servingAs (name : String) :
    inquiries (servingAs name) ["apps/v1"] =
      [("apps/v1", .ok ⟨some name, some [deployments]⟩)] := by
  simp [inquiries, replies, Asks, replyAt, Cluster.resourcesOf, Cluster.repliesOf, servingAs]

/-- A refresh of a cluster whose reply goes by what was asked for. -/
theorem refresh_catalogues_deployments :
    let source := source 10 ⟨servingAs "apps/v1", []⟩
    let w := await source 0 20 (call source .refresh (init true))
    Reachable source true w ∧ (w.state.attempts[0]?).any Attempt.isPublished = true ∧
      ∃ began entries, w.state.snapshot = some ⟨entries, began⟩ ∧
        Complete (inquiries (servingAs "apps/v1") ["apps/v1"]) entries := by
  intro source w
  have reached : Reachable source true w := (run_call .refresh _).trans (run_await 0 20 _)
  have first : (w.state.attempts[0]?).any Attempt.isPublished = true := by decide
  have completed : w.state.completed = 1 := by decide
  obtain ⟨a, there, published⟩ := (Option.any_eq_true _ _).1 first
  obtain ⟨-, began, entries, listed, -, shown, lists, -, complete⟩ :=
    refresh_catalogues reached there (Attempt.verdict?_of_isPublished published)
  cases lists with
  | of_answers core others =>
    cases core
    cases others
    have echoes : Echoes (inquiries (servingAs "apps/v1") ["apps/v1"]) := by
      intro groupVersion reply asked
      rw [inquiries_servingAs, List.mem_singleton] at asked
      cases asked
      exact .named rfl (by decide)
    exact ⟨reached, first, began, entries, shown completed, complete echoes⟩

/-- A reply that goes by another name leaves nothing under the one that was listed. -/
theorem refresh_catalogues_misnamed :
    let source := source 10 ⟨servingAs "apps/v1beta1", []⟩
    let w := await source 0 20 (call source .refresh (init true))
    Reachable source true w ∧ w.state.answerOf 0 matches some (.truth true) ∧
      Lists (servingAs "apps/v1beta1") ["apps/v1"] ∧
      ∀ s, w.state.snapshot = some s → s.groupVersions.keys = ["apps/v1beta1"] ∧
        ¬ Complete (inquiries (servingAs "apps/v1beta1") ["apps/v1"]) s.groupVersions := by
  intro source w
  have reached : Reachable source true w := (run_call .refresh _).trans (run_await 0 20 _)
  have shown : w.state.snapshot.map (·.groupVersions.keys) = some ["apps/v1beta1"] := by decide
  refine ⟨reached, by decide, lists_servingAs _, fun s there => ?_⟩
  have keys : s.groupVersions.keys = ["apps/v1beta1"] := by simpa [there] using shown
  refine ⟨keys, fun complete => ?_⟩
  rw [inquiries_servingAs] at complete
  obtain ⟨entry, read, -⟩ := complete "apps/v1" _ List.mem_cons_self
  have found := (Table.mem_keys_iff s.groupVersions "apps/v1").2 (by simp [read])
  rw [keys] at found
  revert found
  decide

end World

end ApiCatalog
