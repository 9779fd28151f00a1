/-
# ApiCatalog.Proofs.KindIndex -- the kinds of a listing

The kinds of an entry are those of its resources (`Entry.FilesKinds`): a kind
that stands only on subresources, or only on records that a later record of the
same name replaces, is no kind of the listing.  Under a kind stands a resource as
it is filed under its own name.  Of several names with one kind that one wins
which was the last to occur for the first time, since a table ranks its keys by
their first pairs while it reads their last.
-/
import ApiCatalog.Proofs.EntryIndex

namespace ApiCatalog

set_option autoImplicit false

/-- The names of some records, in order. -/
def Record.names (records : List Record) : List String := records.filterMap (·.name)

theorem Record.map_fst_rows (records : List Record) :
    (Record.rows records).map Prod.fst = Record.names records := by
  simp [Record.rows, Record.names, List.map_filterMap, Function.comp_def]

namespace Entry

variable {gv : GroupVersion} {text : String} {records : List Record}

/-- Kinds are found under resources, and the last resource of a kind is found under it. -/
theorem exists_split_of_get?_kindsOf {resources : Table String Descriptor} {kind : Option String}
    {d : Descriptor} (found : (kindsOf resources).get? kind = some d) :
    ∃ before name after, resources.entries = before ++ (name, d) :: after ∧ d.kind = kind ∧
      ∀ pair ∈ after, pair.2.kind ≠ kind := by
  obtain ⟨before, after, split, last⟩ := Table.get?_ofList_eq_some_iff.1 found
  rw [Table.values, List.map_map] at split
  obtain ⟨first, rest, entries, rfl, tail⟩ := List.map_eq_append_iff.1 split
  obtain ⟨⟨name, d'⟩, later, rfl, same, rfl⟩ := List.map_eq_cons_iff.1 tail
  cases same
  refine ⟨first, name, later, entries, rfl, fun pair mem => ?_⟩
  exact last _ (List.mem_map_of_mem mem)

theorem mem_keys_kindsOf {resources : Table String Descriptor} {kind : Option String} :
    kind ∈ (kindsOf resources).keys ↔
      ∃ name d, resources.get? name = some d ∧ d.kind = kind := by
  rw [kindsOf, Table.mem_keys_ofList]
  simp [Table.values, Table.get?_eq_some_iff_mem]

/-- The resources of a listing are ranked by the first records with their names. -/
theorem pairwise_keys_resources : (ofResolved (resolved gv text records)).resources.keys.Pairwise
    fun a b => (Record.names records).idxOf a < (Record.names records).idxOf b := by
  simp only [ofResolved, keys_foldl_adopt, topLevel]
  refine (Table.pairwise_keys_ofList _).imp_of_mem fun {a b} memA memB lt => ?_
  have names : (resolved gv text records).map Prod.fst = Record.names records := by
    rw [← Record.map_fst_rows, resolved, resolve, List.map_map]
    rfl
  rw [Table.mem_keys_ofList, keys_filter fun name => !isPath name] at memA memB
  rw [keys_filter fun name => !isPath name, names] at lt
  exact idxOf_filter_lt (List.mem_filter.1 memA).2 (List.mem_filter.1 memB).2 lt

/-! ## The kinds of an entry -/

/-- The kinds of an entry agree with its resources. -/
structure FilesKinds (entry : Entry) (records : List Record) : Prop where
  kinds : ∀ kind, kind ∈ entry.kinds.keys ↔
    ∃ name d, entry.resources.get? name = some d ∧ d.kind = kind
  /-- Only the last record of a name without a slash gives a kind. -/
  fromLast : ∀ kind, kind ∈ entry.kinds.keys ↔
    ∃ name r, Record.LastNamed records name r ∧ '/' ∉ name.toList ∧ r.kind = kind
  found : ∀ kind d, entry.kinds.get? kind = some d →
    d.kind = kind ∧ entry.resources.get? d.name = some d
  /-- The last name of a kind to occur for the first time is found under the kind. -/
  winner : ∀ kind d, entry.kinds.get? kind = some d →
    ∀ name e, entry.resources.get? name = some e → e.kind = kind →
      (Record.names records).idxOf name ≤ (Record.names records).idxOf d.name

theorem Files.kind_of_get? {entry : Entry} (files : entry.Files gv text records) {name : String}
    {d : Descriptor} (found : entry.resources.get? name = some d) :
    d.name = name ∧ ∃ r, Record.LastNamed records name r ∧ '/' ∉ name.toList ∧ r.kind = d.kind := by
  obtain ⟨clear, r, last, describes⟩ := files.describes_resource found
  exact ⟨describes.name, r, last, clear, describes.kind.symm⟩

theorem Files.filesKinds {entry : Entry} (files : entry.Files gv text records)
    (kinds : entry.kinds = kindsOf entry.resources)
    (ranked : entry.resources.keys.Pairwise fun a b =>
      (Record.names records).idxOf a < (Record.names records).idxOf b) :
    entry.FilesKinds records := by
  have keys : ∀ kind, kind ∈ entry.kinds.keys ↔
      ∃ name d, entry.resources.get? name = some d ∧ d.kind = kind := by
    rw [kinds]
    exact fun kind => mem_keys_kindsOf
  refine ⟨keys, fun kind => (keys kind).trans ?_, ?_, ?_⟩
  · constructor
    · rintro ⟨name, d, found, rfl⟩
      obtain ⟨-, r, last, clear, kind⟩ := files.kind_of_get? found
      exact ⟨name, r, last, clear, kind⟩
    · rintro ⟨name, r, last, clear, rfl⟩
      obtain ⟨d, found, describes, -⟩ := files.resource name r last clear
      exact ⟨name, d, found, describes.kind⟩
  · intro kind d found
    rw [kinds] at found
    obtain ⟨before, name, after, split, same, -⟩ := exists_split_of_get?_kindsOf found
    have filed : entry.resources.get? name = some d :=
      Table.get?_eq_some_iff_mem.2 (by simp [split])
    rw [(files.kind_of_get? filed).1]
    exact ⟨same, filed⟩
  · intro kind d found name e filed same
    rw [kinds] at found
    obtain ⟨before, winner, after, split, -, last⟩ := exists_split_of_get?_kindsOf found
    have own : d.name = winner :=
      (files.kind_of_get? (Table.get?_eq_some_iff_mem.2 (by simp [split]))).1
    rw [Table.keys, split, List.map_append, List.pairwise_append] at ranked
    have place := Table.get?_eq_some_iff_mem.1 filed
    rw [split, List.mem_append, List.mem_cons] at place
    rw [own]
    -- the name stands before the winner or is the winner, since no later resource has the kind
    rcases place with earlier | here | later
    · exact Nat.le_of_lt (ranked.2.2 name (List.mem_map_of_mem earlier) winner (by simp))
    · cases here
      exact Nat.le_refl _
    · exact absurd same (last _ later)

end Entry

namespace Snapshot

variable {τ : Type}

/-- The kinds of a listing that can be read agree with its resources, whatever else is listed. -/
theorem listing_filesKinds {text : String} {gv : GroupVersion}
    (readable : GroupVersion.parse text = .ok gv) {records : List Record}
    (named : ∀ r ∈ records, r.name ≠ none) :
    ∃ entry : Entry,
      (∀ strict, (index strict (some [⟨some text, some records⟩])).result =
        .ok (Table.empty.put text entry)) ∧
      (∀ strict before after entries, (∀ l ∈ after, l.groupVersion ≠ some text) →
        (index strict (some (before ++ ⟨some text, some records⟩ :: after))).result = .ok entries →
          entries.get? text = some entry) ∧
      entry.FilesKinds records ∧
      ∀ s : Snapshot τ, s.groupVersions.get? text = some entry →
        ∀ kind d, s.getByKind? text kind = some d →
          d.kind = some kind ∧ s.get? text d.name = some d := by
  have filed := assess_eq_filed readable named
  have kinds : (Entry.ofResolved (Entry.resolved gv text records)).FilesKinds records :=
    (Entry.files_ofResolved gv text records).filesKinds rfl Entry.pairwise_keys_resources
  refine ⟨_, fun strict => ?_, fun strict before after entries others indexed => ?_, kinds,
    fun s there kind d found => ?_⟩
  · simp only [index, indexOnto, filed strict]
  · exact get?_of_index (filed strict) others indexed
  · rw [getByKind?, there, Option.bind_some] at found
    rw [get?, there, Option.bind_some]
    exact kinds.found (some kind) d found

/-- A kind that two names have in turn, the first of them once more at the end. -/
theorem listing_filesKinds_repeated :
    let records : List Record := [{ name := "ingresses", kind := "Ingress" },
      { name := "routes", kind := "Ingress" }, { name := "ingresses", kind := "Ingress" }]
    GroupVersion.parse "net/v1" = .ok ⟨"net", "v1"⟩ ∧ (∀ r ∈ records, r.name ≠ none) ∧
      ∃ entry : Entry, entry.FilesKinds records ∧
        (index true (some [⟨"net/v1", records⟩])).result = .ok (Table.empty.put "net/v1" entry) := by
  intro records
  have readable : GroupVersion.parse "net/v1" = .ok ⟨"net", "v1"⟩ := by decide
  have named : ∀ r ∈ records, r.name ≠ none := by decide
  obtain ⟨entry, built, -, kinds, -⟩ := listing_filesKinds (τ := Int) readable named
  exact ⟨readable, named, entry, kinds, built true⟩

end Snapshot

end ApiCatalog
