/-
# ApiCatalog.Proofs.Descriptors -- the descriptors of an index are complete

A descriptor is stored in an entry under a name, under a kind or under a path.  In
whichever index it is found, it comes of the last record of its name in the last
listing of its group-version (`exists_record_of_stores`): that record describes it,
but for the subresources that it was given later.

So its group-version text was read once already, and its accessors, which read it
again, never fail (`descriptor_complete`).  They answer with the group and version
of the text, while the descriptor's own group is that of its record unless blank;
the two may disagree.

The text is what the group-version is rendered as, unless it begins with a slash
(`descriptor_render`): such a text is read as a version of the core group and
rendered without the slash, so it is filed apart from the same version without one.
-/
import ApiCatalog.Proofs.GroupVersions
import ApiCatalog.Proofs.KindIndex

namespace ApiCatalog

set_option autoImplicit false

/-- A descriptor is found in one of the three indices of an entry. -/
def Entry.Stores (entry : Entry) (d : Descriptor) : Prop :=
  (∃ name, entry.resources.get? name = some d) ∨ (∃ kind, entry.kinds.get? kind = some d) ∨
    ∃ path, entry.subresources.get? path = some d

namespace Entry

variable {gv : GroupVersion} {text : String} {records : List Record} {entry : Entry}
  {d : Descriptor}

/-- A stored descriptor is described by the last record of its name. -/
theorem Files.describes (files : entry.Files gv text records) (kinds : entry.FilesKinds records)
    (stored : entry.Stores d) :
    ∃ r, Record.LastNamed records d.name r ∧ r.Describes d.name gv text d := by
  rcases stored with ⟨name, found⟩ | ⟨kind, found⟩ | ⟨path, found⟩
  · obtain ⟨-, r, last, describes⟩ := files.describes_resource found
    cases describes.name
    exact ⟨r, last, describes⟩
  · exact (files.describes_resource (kinds.found kind d found).2).2
  · obtain ⟨-, r, last, describes⟩ := files.describes_subresource found
    cases describes.name
    exact ⟨r, last, describes⟩

end Entry

namespace Snapshot

variable {strict : Bool} {listings : List Listing} {entries : Table String Entry}

section

variable (indexed : (index strict (some listings)).result = .ok entries)

include indexed

/-- What is read under a group-version files the last listing of it. -/
theorem exists_files_of_get? {text : String} {entry : Entry}
    (filed : entries.get? text = some entry) :
    ∃ before records after gv, listings = before ++ ⟨some text, some records⟩ :: after ∧
      (∀ l ∈ after, l.groupVersion ≠ some text) ∧ GroupVersion.parse text = .ok gv ∧
      entry.Files gv text records ∧ entry.FilesKinds records := by
  obtain ⟨before, records, after, gv, split, last, readable, rfl⟩ :=
    exists_listing_of_get? indexed filed
  have files := Entry.files_ofResolved gv text records
  exact ⟨before, records, after, gv, split, last, readable, files,
    files.filesKinds rfl Entry.pairwise_keys_resources⟩

/-- A stored descriptor is described by the last record of its name in the last listing of its
group-version. -/
theorem exists_record_of_stores {text : String} {entry : Entry}
    (filed : entries.get? text = some entry) {d : Descriptor} (stored : entry.Stores d) :
    ∃ before records after gv r, listings = before ++ ⟨some text, some records⟩ :: after ∧
      (∀ l ∈ after, l.groupVersion ≠ some text) ∧ Record.LastNamed records d.name r ∧
      GroupVersion.parse text = .ok gv ∧ r.Describes d.name gv text d := by
  obtain ⟨before, records, after, gv, split, last, readable, files, kinds⟩ :=
    exists_files_of_get? indexed filed
  obtain ⟨r, lastNamed, describes⟩ := files.describes kinds stored
  exact ⟨before, records, after, gv, r, split, last, lastNamed, readable, describes⟩

/-- A resource is found under its own name. -/
theorem name_of_get? {text name : String} {entry : Entry} (filed : entries.get? text = some entry)
    {d : Descriptor} (found : entry.resources.get? name = some d) : d.name = name := by
  obtain ⟨-, records, -, gv, -, -, -, files, -⟩ := exists_files_of_get? indexed filed
  obtain ⟨-, r, -, describes⟩ := files.describes_resource found
  exact describes.name

/-- A resource is found under its own kind. -/
theorem kind_of_get? {text : String} {kind : Option String} {entry : Entry}
    (filed : entries.get? text = some entry) {d : Descriptor}
    (found : entry.kinds.get? kind = some d) : d.kind = kind := by
  obtain ⟨-, records, -, gv, -, -, -, -, kinds⟩ := exists_files_of_get? indexed filed
  exact (kinds.found kind d found).1

end

/-- Under a group-version that can be read a descriptor has a version. -/
theorem version_ne_of_describes {text name : String} {gv : GroupVersion} {r : Record}
    {d : Descriptor} (readable : GroupVersion.parse text = .ok gv)
    (describes : r.Describes name gv text d) : d.version ≠ "" := by
  rw [describes.version]
  by_cases blank : r.version = ""
  · rw [if_pos blank]
    exact (GroupVersion.parse_eq_ok_iff.1 readable).2.2.1
  · rw [if_neg blank]
    exact blank

/-- Published descriptors are complete, and their accessors never fail. -/
theorem descriptor_complete {τ : Type}
    (indexed : (index strict (some listings)).result = .ok entries) :
    (∀ text entry d, entries.get? text = some entry → entry.Stores d →
      ∃ before records after gv r,
        -- the listing and the record that the descriptor comes of
        listings = before ++ ⟨some text, some records⟩ :: after ∧
        (∀ l ∈ after, l.groupVersion ≠ some text) ∧
        Record.LastNamed records d.name r ∧
        -- what it holds
        GroupVersion.parse text = .ok gv ∧
        d.apiVersion = text ∧
        d.version ≠ "" ∧
        d.group = (if r.group = "" then gv.group else r.group) ∧
        d.version = (if r.version = "" then gv.version else r.version) ∧
        d.kind = r.kind ∧
        -- what its accessors answer
        d.groupVersion = .ok gv ∧
        d.groupVersionKind = .ok ⟨gv.group, gv.version, d.kindText⟩ ∧
        (∀ kind, d.kind = some kind → d.kindText = kind) ∧
        d.groupVersionResource = .ok ⟨gv.group, gv.version, d.name⟩ ∧
        d.groupResource = ⟨d.group, d.name⟩ ∧
        (d.groupVersionResource.map (·.groupResource) = .ok d.groupResource ↔
          r.group = "" ∨ r.group = gv.group)) ∧
    ∀ s : Snapshot τ, s.groupVersions = entries →
      (∀ text name d, s.get? text name = some d → d.name = name) ∧
      ∀ text kind d, s.getByKind? text kind = some d → d.kind = some kind := by
  refine ⟨fun text entry d filed stored => ?_, fun s own => ⟨?_, ?_⟩⟩
  · obtain ⟨before, records, after, gv, r, split, last, lastNamed, readable, describes⟩ :=
      exists_record_of_stores indexed filed stored
    have own : d.groupVersion = .ok gv := by
      rw [Descriptor.groupVersion, describes.apiVersion, readable]
    have resource : d.groupVersionResource = .ok ⟨gv.group, gv.version, d.name⟩ := by
      rw [Descriptor.groupVersionResource, own]
      rfl
    refine ⟨before, records, after, gv, r, split, last, lastNamed, readable, describes.apiVersion,
      version_ne_of_describes readable describes, describes.group, describes.version,
      describes.kind, own, ?_, fun kind same => ?_, resource, rfl, ?_⟩
    · rw [Descriptor.groupVersionKind, own]
      rfl
    · rw [Descriptor.kindText, same]
      rfl
    · have answer : d.groupVersionResource.map (·.groupResource) = .ok ⟨gv.group, d.name⟩ := by
        rw [resource]
        rfl
      rw [answer, Descriptor.groupResource, describes.group]
      by_cases blank : r.group = ""
      · simp [blank]
      · simp [blank, eq_comm]
  · intro text name d found
    obtain ⟨entry, filed, there⟩ := Option.bind_eq_some_iff.1 found
    exact name_of_get? indexed (own ▸ filed) there
  · intro text kind d found
    obtain ⟨entry, filed, there⟩ := Option.bind_eq_some_iff.1 found
    exact kind_of_get? indexed (own ▸ filed) there

/-- A deployment whose record names a group that is not the one it is listed under. -/
theorem descriptor_complete_extensions :
    let deployment : Record :=
      { name := "deployments", kind := "Deployment", group := "extensions" }
    ∃ entries entry d,
      (index true (some [⟨"apps/v1", some [deployment]⟩])).result = .ok entries ∧
      entries.get? "apps/v1" = some entry ∧ entry.resources.get? "deployments" = some d ∧
      d.version = "v1" ∧ d.groupVersionResource = .ok ⟨"apps", "v1", "deployments"⟩ ∧
      d.groupResource = ⟨"extensions", "deployments"⟩ := by
  intro deployment
  let d : Descriptor :=
    { name := "deployments"
      kind := "Deployment"
      group := "extensions"
      version := "v1"
      apiVersion := "apps/v1" }
  obtain ⟨entries, indexed, read⟩ : ∃ entries,
      (index true (some [⟨"apps/v1", some [deployment]⟩])).result = .ok entries ∧
        (entries.get? "apps/v1").bind (·.resources.get? "deployments") = some d :=
    ⟨_, rfl, by decide⟩
  obtain ⟨entry, filed, found⟩ := Option.bind_eq_some_iff.1 read
  obtain ⟨-, -, -, gv, -, -, -, -, readable, -, -, -, -, -, -, -, -, resource, group, -⟩ :=
    (descriptor_complete (τ := Int) indexed).1 "apps/v1" entry d filed (.inl ⟨_, found⟩)
  have gvRead : GroupVersion.parse "apps/v1" = .ok ⟨"apps", "v1"⟩ := by decide
  rw [gvRead] at readable
  cases readable
  exact ⟨entries, entry, d, indexed, filed, found, rfl, resource, group⟩

/-! ## Group-versions written again -/

/-- The group-version of a descriptor is rendered as the text that it is filed under, but for a
slash that the text begins with; so no two texts without such a slash are one group-version. -/
theorem descriptor_render (indexed : (index strict (some listings)).result = .ok entries) :
    (∀ text entry d, entries.get? text = some entry → entry.Stores d →
      ∃ gv, d.groupVersion = .ok gv ∧
        (gv.render = text ↔ ¬ GroupVersion.Slashed text) ∧
        (GroupVersion.Slashed text → "/" ++ gv.render = text)) ∧
    ∀ text ∈ entries.keys, ∀ text' ∈ entries.keys,
      GroupVersion.parse text = GroupVersion.parse text' →
        (text = text' ∨ text = "/" ++ text' ∨ text' = "/" ++ text) ∧
        (¬ GroupVersion.Slashed text → ¬ GroupVersion.Slashed text' → text = text') := by
  refine ⟨fun text entry d filed stored => ?_, fun text mem text' mem' same => ?_⟩
  · obtain ⟨-, -, -, gv, r, -, -, -, readable, describes⟩ :=
      exists_record_of_stores indexed filed stored
    refine ⟨gv, ?_, GroupVersion.render_eq_iff_of_parse readable, fun slashed => ?_⟩
    · rw [Descriptor.groupVersion, describes.apiVersion, readable]
    · rcases GroupVersion.render_of_parse readable with ⟨plain, -⟩ | ⟨-, -, behind⟩
      · exact absurd slashed plain
      · exact behind
  · obtain ⟨gv, readable⟩ := exists_parse_of_mem_keys indexed mem
    have readable' : GroupVersion.parse text' = .ok gv := same ▸ readable
    refine ⟨GroupVersion.eq_or_slash_of_parse readable readable', fun plain plain' => ?_⟩
    rw [← (GroupVersion.render_eq_iff_of_parse readable).2 plain,
      (GroupVersion.render_eq_iff_of_parse readable').2 plain']

/-- The core group and a named one. -/
theorem descriptor_render_pods :
    let pods : Record := { name := "pods", kind := "Pod" }
    let metrics : Record := { name := "pods", kind := "PodMetrics" }
    ∃ entries entry d gv,
      (index true (some [⟨"v1", some [pods]⟩, ⟨"metrics.k8s.io/v1", some [metrics]⟩])).result =
        .ok entries ∧
      entries.get? "metrics.k8s.io/v1" = some entry ∧ entry.resources.get? "pods" = some d ∧
      d.groupVersion = .ok gv ∧ gv.render = "metrics.k8s.io/v1" := by
  intro pods metrics
  let d : Descriptor :=
    { name := "pods"
      kind := "PodMetrics"
      group := "metrics.k8s.io"
      version := "v1"
      apiVersion := "metrics.k8s.io/v1" }
  obtain ⟨entries, indexed, read⟩ : ∃ entries,
      (index true (some [⟨"v1", some [pods]⟩, ⟨"metrics.k8s.io/v1", some [metrics]⟩])).result =
          .ok entries ∧
        (entries.get? "metrics.k8s.io/v1").bind (·.resources.get? "pods") = some d :=
    ⟨_, rfl, by decide⟩
  obtain ⟨entry, filed, found⟩ := Option.bind_eq_some_iff.1 read
  obtain ⟨gv, answer, rendered, -⟩ :=
    (descriptor_render indexed).1 "metrics.k8s.io/v1" entry d filed (.inl ⟨_, found⟩)
  exact ⟨entries, entry, d, gv, indexed, filed, found, answer, rendered.2 (by decide)⟩

/-- A version behind a slash is rendered without it, and is filed apart from the same version
without one. -/
theorem descriptor_render_slash :
    let pods : Record := { name := "pods", kind := "Pod" }
    ∃ entries entry d gv,
      (index true (some [⟨"/v1", some [pods]⟩, ⟨"v1", some [pods]⟩])).result = .ok entries ∧
      entries.get? "/v1" = some entry ∧ entry.resources.get? "pods" = some d ∧
      d.groupVersion = .ok gv ∧ gv.render ≠ "/v1" ∧
      entries.keys = ["/v1", "v1"] ∧
      GroupVersion.parse "/v1" = .ok gv ∧ GroupVersion.parse "v1" = .ok gv := by
  intro pods
  let d : Descriptor :=
    { name := "pods", kind := "Pod", group := "", version := "v1", apiVersion := "/v1" }
  obtain ⟨entries, indexed, read, keys⟩ : ∃ entries,
      (index true (some [⟨"/v1", some [pods]⟩, ⟨"v1", some [pods]⟩])).result = .ok entries ∧
        (entries.get? "/v1").bind (·.resources.get? "pods") = some d ∧
        entries.keys = ["/v1", "v1"] :=
    ⟨_, rfl, by decide, by decide⟩
  obtain ⟨entry, filed, found⟩ := Option.bind_eq_some_iff.1 read
  exact ⟨entries, entry, d, ⟨"", "v1"⟩, indexed, filed, found, by decide, by decide, keys,
    by decide, by decide⟩

end Snapshot

end ApiCatalog
