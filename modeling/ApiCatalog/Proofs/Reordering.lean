/-
# ApiCatalog.Proofs.Reordering -- an enumeration in another order

Where no group-version and no name within a group-version is repeated, an
enumeration may come in any order: resources and subresources are filed the same
(`Entry.Alike`), and so is the resource under each kind that no other resource
has (`Entry.Unshared`).  Where no kind is shared, the snapshots are the same
mapping.

A kind that several resources have is filed with the one that is listed last.
There the order shows (`index_reordered_shared_kind`).
-/
import ApiCatalog.Proofs.KindIndex
import Mathlib.Data.List.Nodup

namespace ApiCatalog

set_option autoImplicit false

/-! ## The same listings in another order -/

namespace Listing

/-- The same listing with its records in another order. -/
def Reordered (first second : Listing) : Prop :=
  first.groupVersion = second.groupVersion ∧ Option.Rel List.Perm first.records second.records

/-- A listing that can be read and whose records have names of their own. -/
def Plain (listing : Listing) : Prop :=
  ∃ text gv records, listing = ⟨some text, some records⟩ ∧ GroupVersion.parse text = .ok gv ∧
    (∀ r ∈ records, r.name ≠ none) ∧ (records.map (·.name)).Nodup

theorem Plain.sound {listing : Listing} (plain : listing.Plain) : listing.Sound := by
  obtain ⟨text, gv, records, rfl, readable, named, -⟩ := plain
  exact ⟨text, gv, records, rfl, readable, named⟩

theorem Reordered.of_records {text : String} {records : List Record} {second : Listing}
    (reordered : Reordered ⟨some text, some records⟩ second) :
    ∃ records', second = ⟨some text, some records'⟩ ∧ records.Perm records' := by
  obtain ⟨groupVersion, other⟩ := second
  obtain ⟨rfl, perm⟩ := reordered
  cases other with
  | none => cases perm
  | some records' => exact ⟨records', rfl, Option.rel_some_some.1 perm⟩

theorem Plain.reordered {first second : Listing} (plain : first.Plain)
    (reordered : first.Reordered second) : second.Plain := by
  obtain ⟨text, gv, records, rfl, readable, named, distinct⟩ := plain
  obtain ⟨records', rfl, perm⟩ := reordered.of_records
  exact ⟨text, gv, records', rfl, readable, fun r mem => named r (perm.mem_iff.2 mem),
    (perm.map _).nodup_iff.1 distinct⟩

end Listing

/-- The same listings in another order, each with its records in another order. -/
def Reordered (first second : List Listing) : Prop :=
  ∃ between, first.Perm between ∧ List.Forall₂ Listing.Reordered between second

namespace Reordered

variable {first second : List Listing} (reordered : Reordered first second)

include reordered

theorem groupVersions :
    (first.map (·.groupVersion)).Perm (second.map (·.groupVersion)) := by
  obtain ⟨between, perm, each⟩ := reordered
  have same : between.map (·.groupVersion) = second.map (·.groupVersion) := by
    clear perm
    induction each with
    | nil => rfl
    | cons head tail ih => rw [List.map_cons, List.map_cons, head.1, ih]
  exact same ▸ perm.map _

theorem exists_right {l : Listing} (mem : l ∈ first) : ∃ m ∈ second, l.Reordered m := by
  obtain ⟨between, perm, each⟩ := reordered
  exact (exists_of_forall₂ each).1 l (perm.mem_iff.1 mem)

theorem exists_left {m : Listing} (mem : m ∈ second) : ∃ l ∈ first, l.Reordered m := by
  obtain ⟨between, perm, each⟩ := reordered
  obtain ⟨l, there, same⟩ := (exists_of_forall₂ each).2 m mem
  exact ⟨l, perm.mem_iff.2 there, same⟩

theorem plain (plain : ∀ l ∈ first, l.Plain) : ∀ m ∈ second, m.Plain := by
  intro m mem
  obtain ⟨l, there, same⟩ := reordered.exists_left mem
  exact (plain l there).reordered same

end Reordered

/-! ## Entries that agree -/

namespace Record

/-- Where no name is repeated, the last record with a name is the only one. -/
theorem lastNamed_iff_of_distinct {records : List Record}
    (distinct : (records.map (·.name)).Nodup) {name : String} {r : Record} :
    LastNamed records name r ↔ r ∈ records ∧ r.name = some name := by
  constructor
  · rintro ⟨before, after, rfl, named, -⟩
    exact ⟨by simp, named⟩
  · rintro ⟨mem, named⟩
    obtain ⟨before, after, split, last⟩ := exists_last_of_distinct mem distinct
    exact ⟨before, after, split, named, fun s later same => last s later (same.trans named.symm)⟩

theorem lastNamed_of_perm {records records' : List Record} (perm : records.Perm records')
    (distinct : (records.map (·.name)).Nodup) {name : String} {r : Record} :
    LastNamed records name r ↔ LastNamed records' name r := by
  rw [lastNamed_iff_of_distinct distinct,
    lastNamed_iff_of_distinct ((perm.map _).nodup_iff.1 distinct), perm.mem_iff]

/-- The kinds of the records whose names have no slash, in order. -/
def topKinds (records : List Record) : List (Option String) :=
  (records.filter fun r => !r.name.any isPath).map (·.kind)

theorem names_of_perm {records records' : List Record} (perm : records.Perm records')
    {name : String} : Names records name ↔ Names records' name :=
  exists_congr fun _ => and_congr_left fun _ => perm.mem_iff

end Record

namespace Entry

variable {gv : GroupVersion} {text : String} {records records' : List Record} {a b : Entry}

/-- No two resources have the kind. -/
def Unshared (entry : Entry) (kind : Option String) : Prop :=
  ∀ name d name' d', entry.resources.get? name = some d → entry.resources.get? name' = some d' →
    d.kind = kind → d'.kind = kind → name = name'

/-- Entries that file the same, except for which resource stands under a shared kind. -/
structure Alike (a b : Entry) : Prop where
  resources : ∀ name, a.resources.get? name = b.resources.get? name
  subresources : ∀ path, a.subresources.get? path = b.subresources.get? path
  kinds : ∀ kind, kind ∈ a.kinds.keys ↔ kind ∈ b.kinds.keys
  unshared : ∀ kind, a.Unshared kind → a.kinds.get? kind = b.kinds.get? kind

section

variable (files : a.Files gv text records) (files' : b.Files gv text records')
  (perm : records.Perm records') (distinct : (records.map (·.name)).Nodup)

include files files' perm distinct

theorem Files.get?_resources_of_perm (name : String) :
    a.resources.get? name = b.resources.get? name := by
  by_cases there : Record.Names records name ∧ '/' ∉ name.toList
  · obtain ⟨r, last⟩ := Record.exists_lastNamed there.1
    obtain ⟨d, found, describes, keys⟩ := files.resource name r last there.2
    obtain ⟨d', found', describes', keys'⟩ :=
      files'.resource name r ((Record.lastNamed_of_perm perm distinct).1 last) there.2
    have subresources : d.subresources = d'.subresources := by
      ext key
      rw [keys, keys', Record.names_of_perm perm]
    rw [found, found', describes.eq describes' subresources]
  · have missing : name ∉ a.resources.keys := fun mem => there ((files.names name).1 mem)
    have missing' : name ∉ b.resources.keys := fun mem =>
      there (by simpa [Record.names_of_perm perm] using (files'.names name).1 mem)
    rw [(Table.get?_eq_none_iff _ _).2 missing, (Table.get?_eq_none_iff _ _).2 missing']

theorem Files.get?_subresources_of_perm (path : String) :
    a.subresources.get? path = b.subresources.get? path := by
  by_cases there : Record.Names records path ∧ '/' ∈ path.toList
  · obtain ⟨r, last⟩ := Record.exists_lastNamed there.1
    obtain ⟨d, found, describes, none⟩ := files.subresource path r last there.2
    obtain ⟨d', found', describes', none'⟩ :=
      files'.subresource path r ((Record.lastNamed_of_perm perm distinct).1 last) there.2
    have subresources : d.subresources = d'.subresources := by
      ext key
      exact iff_of_false (none key) (none' key)
    rw [found, found', describes.eq describes' subresources]
  · have missing : path ∉ a.subresources.keys := fun mem => there ((files.paths path).1 mem)
    have missing' : path ∉ b.subresources.keys := fun mem =>
      there (by simpa [Record.names_of_perm perm] using (files'.paths path).1 mem)
    rw [(Table.get?_eq_none_iff _ _).2 missing, (Table.get?_eq_none_iff _ _).2 missing']

end

section

variable (kinds : a.FilesKinds records) (kinds' : b.FilesKinds records')
  (resources : ∀ name, a.resources.get? name = b.resources.get? name)

include kinds kinds' resources

theorem FilesKinds.keys_of_resources (kind : Option String) :
    kind ∈ a.kinds.keys ↔ kind ∈ b.kinds.keys := by
  rw [kinds.kinds, kinds'.kinds]
  simp only [resources]

/-- The only resource of a kind stands under it. -/
theorem FilesKinds.get?_of_unshared {kind : Option String} (unshared : a.Unshared kind) :
    a.kinds.get? kind = b.kinds.get? kind := by
  by_cases there : kind ∈ a.kinds.keys
  · have there' := (kinds.keys_of_resources kinds' resources kind).1 there
    rw [Table.mem_keys_iff, Option.isSome_iff_exists] at there there'
    obtain ⟨d, read⟩ := there
    obtain ⟨d', read'⟩ := there'
    obtain ⟨same, found⟩ := kinds.found kind d read
    obtain ⟨same', found'⟩ := kinds'.found kind d' read'
    rw [← resources] at found'
    have name : d.name = d'.name := unshared _ d _ d' found found' same same'
    rw [name, found'] at found
    rw [read, read', found]
  · have there' := fun mem => there ((kinds.keys_of_resources kinds' resources kind).2 mem)
    rw [(Table.get?_eq_none_iff _ _).2 there, (Table.get?_eq_none_iff _ _).2 there']

end

/-- Where the kinds of a listing are distinct, none of its entry's kinds is shared. -/
theorem Files.unshared (files : a.Files gv text records) (kinds : (Record.topKinds records).Nodup)
    (kind : Option String) : a.Unshared kind := by
  intro name d name' d' found found' same same'
  obtain ⟨-, r, last, clear, own⟩ := files.kind_of_get? found
  obtain ⟨-, r', last', clear', own'⟩ := files.kind_of_get? found'
  have top : ∀ {n s}, Record.LastNamed records n s → '/' ∉ n.toList →
      s ∈ records.filter fun r => !r.name.any isPath := by
    rintro n s ⟨before, after, rfl, named, -⟩ clear
    simp [named, isPath_eq_false_iff.2 clear]
  have one : r = r' := List.inj_on_of_nodup_map kinds (top last clear) (top last' clear')
    (by rw [own, own', same, same'])
  obtain ⟨-, -, -, named, -⟩ := last
  obtain ⟨-, -, -, named', -⟩ := last'
  rw [one, named'] at named
  exact (Option.some.inj named).symm

/-- The entries of a listing in two orders agree. -/
theorem alike_of_perm (perm : records.Perm records') (distinct : (records.map (·.name)).Nodup) :
    (ofResolved (resolved gv text records)).Alike (ofResolved (resolved gv text records')) := by
  have files := files_ofResolved gv text records
  have files' := files_ofResolved gv text records'
  have kinds := files.filesKinds rfl pairwise_keys_resources
  have kinds' := files'.filesKinds rfl pairwise_keys_resources
  have resources := files.get?_resources_of_perm files' perm distinct
  exact ⟨resources, files.get?_subresources_of_perm files' perm distinct,
    kinds.keys_of_resources kinds' resources, fun kind => kinds.get?_of_unshared kinds' resources⟩

/-- Entries that agree are the same mapping where no kind is shared. -/
theorem Alike.same (alike : a.Alike b) (unshared : ∀ kind, a.Unshared kind) :
    a.same b = true := by
  simp only [Entry.same, Bool.and_eq_true, Table.sameMapping_iff]
  exact ⟨⟨alike.resources, fun kind => alike.unshared kind (unshared kind)⟩, alike.subresources⟩

end Entry

/-! ## Snapshots that agree -/

namespace Snapshot

theorem sameEntries_iff {a b : Table String Entry} : sameEntries a b = true ↔
    ∀ text,
      Option.Rel (fun entry entry' => entry.same entry' = true) (a.get? text) (b.get? text) := by
  rw [Table.rel_get?_iff, sameEntries]
  simp only [Bool.and_eq_true, decide_eq_true_eq, List.all_eq_true]
  refine and_congr_right fun _ => forall_congr' fun pair => imp_congr_right fun _ => ?_
  cases b.get? pair.1 <;> simp

section

variable {listings : List Listing} (plain : ∀ l ∈ listings, l.Plain)

include plain

/-- A plain listing is filed. -/
theorem assess_of_plain (strict : Bool) :
    ∀ l ∈ listings, ∀ why, assess strict l ≠ .refused why :=
  fun l mem => (plain l mem).sound.unrefused strict

variable (distinct : (listings.map (·.groupVersion)).Nodup)

include distinct

/-- Under each group-version stands what is filed of its listing. -/
theorem get?_filings (strict : Bool) {text : String} {entry : Entry} :
    (Table.ofList (filings strict listings)).get? text = some entry ↔
      ∃ listing ∈ listings, ∃ orphans, assess strict listing = .filed text entry orphans := by
  have keys : ((filings strict listings).map Prod.fst).Nodup := by
    rw [← groupVersions_filings (fun l mem => (plain l mem).sound) strict] at distinct
    exact List.Nodup.of_map some (by rwa [List.map_map])
  rw [Table.get?_ofList_of_distinct keys, mem_filings]

end

section

variable {first second : List Listing} (reordered : Reordered first second)
  (plain : ∀ l ∈ first, l.Plain) (distinct : (first.map (·.groupVersion)).Nodup) (strict : Bool)

include reordered plain distinct

/-- Each entry agrees with that of the same listing in the other order. -/
theorem exists_alike {text : String} {entry : Entry}
    (read : (Table.ofList (filings strict first)).get? text = some entry) :
    ∃ gv records, ⟨some text, some records⟩ ∈ first ∧ entry.Files gv text records ∧
      ∃ entry', (Table.ofList (filings strict second)).get? text = some entry' ∧
        entry.Alike entry' := by
  obtain ⟨l, mem, orphans, filed⟩ := (get?_filings plain distinct strict).1 read
  obtain ⟨text', gv, records, rfl, readable, named, names⟩ := plain l mem
  rw [assess_eq_filed readable named strict] at filed
  cases filed
  obtain ⟨m, mem', same⟩ := reordered.exists_right mem
  obtain ⟨records', rfl, perm⟩ := same.of_records
  have named' : ∀ r ∈ records', r.name ≠ none := fun r mem => named r (perm.mem_iff.2 mem)
  have distinct' := reordered.groupVersions.nodup_iff.1 distinct
  exact ⟨gv, records, mem, Entry.files_ofResolved gv _ records, _,
    (get?_filings (reordered.plain plain) distinct' strict).2
      ⟨_, mem', _, assess_eq_filed readable named' strict⟩, Entry.alike_of_perm perm names⟩

theorem alike_filings (text : String) : Option.Rel Entry.Alike
    ((Table.ofList (filings strict first)).get? text)
    ((Table.ofList (filings strict second)).get? text) := by
  cases read : (Table.ofList (filings strict first)).get? text with
  | some entry =>
    obtain ⟨-, -, -, -, entry', read', alike⟩ := exists_alike reordered plain distinct strict read
    rw [read']
    exact .some alike
  | none =>
    have missing : (Table.ofList (filings strict second)).get? text = none := by
      have sound : ∀ l ∈ first, l.Sound := fun l mem => (plain l mem).sound
      have sound' : ∀ l ∈ second, l.Sound := fun l mem => (reordered.plain plain l mem).sound
      rw [Table.get?_eq_none_iff, mem_keys_filings sound', ← reordered.groupVersions.mem_iff,
        ← mem_keys_filings sound, ← Table.get?_eq_none_iff, read]
    rw [missing]
    exact .none

/-- Plain listings of different group-versions are indexed the same in any order, except for which
resource stands under a kind that several have. -/
theorem index_reordered :
    ∃ entries entries', (index strict (some first)).result = .ok entries ∧
      (index strict (some second)).result = .ok entries' ∧
      (∀ text, Option.Rel Entry.Alike (entries.get? text) (entries'.get? text)) ∧
      ((∀ l ∈ first, ∀ records, l.records = some records → (Record.topKinds records).Nodup) →
        sameEntries entries entries' = true) := by
  refine ⟨_, _, result_index_eq_ok_iff.2 ⟨assess_of_plain plain strict, rfl⟩,
    result_index_eq_ok_iff.2 ⟨assess_of_plain (reordered.plain plain) strict, rfl⟩,
    alike_filings reordered plain distinct strict, fun kinds => sameEntries_iff.2 fun text => ?_⟩
  cases read : (Table.ofList (filings strict first)).get? text with
  | some entry =>
    obtain ⟨gv, records, mem, files, entry', read', alike⟩ :=
      exists_alike reordered plain distinct strict read
    rw [read']
    exact .some (alike.same (files.unshared (kinds _ mem records rfl)))
  | none =>
    have agree := alike_filings reordered plain distinct strict text
    rw [read] at agree
    cases missing : (Table.ofList (filings strict second)).get? text with
    | none => exact .none
    | some entry' =>
      rw [missing] at agree
      cases agree

end

/-- Two listings, the first of a resource and its subresource, and each in the other order. -/
theorem index_reordered_reversed :
    let first : List Listing := [
      ⟨"apps/v1", some [{ name := "deployments", kind := "Deployment" },
        { name := "deployments/status", kind := "Deployment" }]⟩,
      ⟨"v1", some [{ name := "pods", kind := "Pod" }, { name := "nodes", kind := "Node" }]⟩]
    let second : List Listing := [
      ⟨"v1", some [{ name := "nodes", kind := "Node" }, { name := "pods", kind := "Pod" }]⟩,
      ⟨"apps/v1", some [{ name := "deployments/status", kind := "Deployment" },
        { name := "deployments", kind := "Deployment" }]⟩]
    Reordered first second ∧ (∀ l ∈ first, l.Plain) ∧ (first.map (·.groupVersion)).Nodup ∧
      ∃ entries entries', (index true (some first)).result = .ok entries ∧
        (index true (some second)).result = .ok entries' ∧ sameEntries entries entries' = true := by
  intro first second
  have reordered : Reordered first second := by
    refine ⟨first.reverse, (List.reverse_perm first).symm, ?_⟩
    simp [first, second, Listing.Reordered, List.Perm.swap]
  have plain : ∀ l ∈ first, l.Plain := by
    simp only [first, List.forall_mem_cons, List.not_mem_nil, false_implies, implies_true, and_true]
    exact ⟨⟨_, ⟨"apps", "v1"⟩, _, rfl, by decide, by decide, by decide⟩,
      ⟨_, ⟨"", "v1"⟩, _, rfl, by decide, by decide, by decide⟩⟩
  have distinct : (first.map (·.groupVersion)).Nodup := by decide
  obtain ⟨entries, entries', built, built', -, same⟩ :=
    index_reordered reordered plain distinct true
  refine ⟨reordered, plain, distinct, entries, entries', built, built', same ?_⟩
  simp only [first, List.forall_mem_cons, List.not_mem_nil, false_implies, implies_true, and_true,
    Option.some.injEq, forall_eq']
  decide

/-- Of two resources of one kind, the kind finds the one that is listed last. -/
theorem index_reordered_shared_kind :
    let ingresses : Record := { name := "ingresses", kind := "Ingress" }
    let routes : Record := { name := "routes", kind := "Ingress" }
    let first : List Listing := [⟨"net/v1", some [ingresses, routes]⟩]
    let second : List Listing := [⟨"net/v1", some [routes, ingresses]⟩]
    Reordered first second ∧ (∀ l ∈ first, l.Plain) ∧ (first.map (·.groupVersion)).Nodup ∧
      ∃ entries entries', (index true (some first)).result = .ok entries ∧
        (index true (some second)).result = .ok entries' ∧ sameEntries entries entries' = false ∧
        (entries.get? "net/v1").bind (fun e => (e.kinds.get? (some "Ingress")).map (·.name)) =
          some "routes" ∧
        (entries'.get? "net/v1").bind (fun e => (e.kinds.get? (some "Ingress")).map (·.name)) =
          some "ingresses" := by
  intro ingresses routes first second
  refine ⟨⟨first, .refl _, .cons ⟨rfl, .some (.swap _ _ _)⟩ .nil⟩, ?_, by decide, _, _, rfl, rfl,
    by decide, by decide, by decide⟩
  intro l mem
  rw [List.mem_singleton.1 mem]
  exact ⟨_, ⟨"net", "v1"⟩, _, rfl, by decide, by decide, by decide⟩

end Snapshot

end ApiCatalog
