/-
# ApiCatalog.Proofs.EntryIndex -- what is filed of one listing

The index of a listing is told by its records alone (`Entry.Files`):

* a name without a slash is filed once, with what its last record says in each of
  its fields (`Record.Describes`), and with a subresource for each path that the
  name owns;
* a path is filed once, with what its last record says, and without subresources;
* a path whose owner is not filed is an orphan, and is remarked once.

It does not matter in which order the records stand, or how often a name or a
path is repeated before its last record.
-/
import ApiCatalog.Proofs.Indexing
import ApiCatalog.Proofs.Tables

namespace ApiCatalog

set_option autoImplicit false

/-! ## Records by name -/

namespace Record

/-- Some record has the name. -/
def Names (records : List Record) (name : String) : Prop := ∃ r ∈ records, r.name = some name

/-- The last record with the name. -/
def LastNamed (records : List Record) (name : String) (r : Record) : Prop :=
  ∃ before after, records = before ++ r :: after ∧ r.name = some name ∧
    ∀ s ∈ after, s.name ≠ some name

/-- The records that have names, with their names. -/
def rows (records : List Record) : List (String × Record) :=
  records.filterMap fun r => r.name.map (·, r)

theorem rows_append (first second : List Record) :
    rows (first ++ second) = rows first ++ rows second := List.filterMap_append

theorem rows_cons {r : Record} {name : String} (named : r.name = some name)
    (rest : List Record) : rows (r :: rest) = (name, r) :: rows rest := by
  simp [rows, named]

theorem named_eq_ok {records : List Record} (named : ∀ r ∈ records, r.name ≠ none) :
    Record.named records = .ok (rows records) := by
  induction records with
  | nil => rfl
  | cons r rest ih =>
    obtain ⟨name, there⟩ := Option.ne_none_iff_exists'.1 (named r List.mem_cons_self)
    have later := ih fun s mem => named s (List.mem_cons_of_mem r mem)
    simp only [Record.named, there, later, rows_cons there]
    rfl

theorem mem_names_rows {records : List Record} {name : String} :
    name ∈ (rows records).map Prod.fst ↔ Names records name := by
  simp [rows, Names, List.map_filterMap, Function.comp_def]

/-- A name that occurs has a last record. -/
theorem exists_lastNamed {records : List Record} {name : String} (names : Names records name) :
    ∃ r, LastNamed records name r := by
  obtain ⟨before, r, after, split, named, last⟩ := exists_last_of_exists names
  exact ⟨r, before, after, split, named, last⟩

/-! ## Records and descriptors -/

/-- A descriptor says of a name what a record of it says, and a listing where the record is silent. -/
structure Describes (r : Record) (name : String) (gv : GroupVersion) (text : String)
    (d : Descriptor) : Prop where
  name : d.name = name
  kind : d.kind = r.kind
  group : d.group = if r.group = "" then gv.group else r.group
  version : d.version = if r.version = "" then gv.version else r.version
  apiVersion : d.apiVersion = text
  namespaced : d.namespaced = r.namespaced
  verbs : d.verbs = r.verbs
  shortNames : d.shortNames = r.shortNames
  singularName : d.singularName = r.singularName
  categories : d.categories = r.categories

section

variable {r : Record} {name : String} {gv : GroupVersion} {text : String} {d d' : Descriptor}

theorem describes_resolve (r : Record) (name : String) (gv : GroupVersion) (text : String) :
    r.Describes name gv text (r.resolve name gv text) :=
  ⟨rfl, rfl, rfl, rfl, rfl, rfl, rfl, rfl, rfl, rfl⟩

/-- Subresources are not described. -/
theorem Describes.withSubresources (describes : r.Describes name gv text d) (keys : TextSet) :
    r.Describes name gv text { d with subresources := keys } :=
  ⟨describes.name, describes.kind, describes.group, describes.version, describes.apiVersion,
    describes.namespaced, describes.verbs, describes.shortNames, describes.singularName,
    describes.categories⟩

/-- Descriptors of one record differ in their subresources at most. -/
theorem Describes.eq (describes : r.Describes name gv text d)
    (describes' : r.Describes name gv text d') (same : d.subresources = d'.subresources) :
    d = d' := by
  cases d
  cases d'
  rw [Descriptor.mk.injEq]
  exact ⟨describes.name.trans describes'.name.symm, describes.kind.trans describes'.kind.symm,
    describes.group.trans describes'.group.symm, describes.version.trans describes'.version.symm,
    describes.apiVersion.trans describes'.apiVersion.symm,
    describes.namespaced.trans describes'.namespaced.symm,
    describes.verbs.trans describes'.verbs.symm,
    describes.shortNames.trans describes'.shortNames.symm,
    describes.singularName.trans describes'.singularName.symm,
    describes.categories.trans describes'.categories.symm, same⟩

end

end Record

/-! ## Paths -/

theorem isPath_iff {name : String} : isPath name = true ↔ '/' ∈ name.toList := by
  rw [isPath, Option.isSome_iff_ne_none, Ne, Text.cut?_eq_none_iff, not_not]

theorem isPath_eq_false_iff {name : String} : isPath name = false ↔ '/' ∉ name.toList := by
  rw [← isPath_iff, Bool.not_eq_true]

/-- A path is cut after its owner. -/
theorem cut?_path {owner : String} (clear : '/' ∉ owner.toList) (key : String) :
    Text.cut? '/' (owner ++ "/" ++ key) = some (owner, key) := by
  rw [Text.cut?_eq_some_iff]
  exact ⟨by simp, clear⟩

theorem eq_path_of_cut? {path owner key : String} (cut : Text.cut? '/' path = some (owner, key)) :
    path = owner ++ "/" ++ key ∧ '/' ∉ owner.toList := by
  obtain ⟨written, clear⟩ := Text.cut?_eq_some_iff.1 cut
  refine ⟨String.toList_inj.1 ?_, clear⟩
  simp [written]

namespace Entry

variable {gv : GroupVersion} {text : String} {records : List Record}

/-! ## Records filed under their names -/

/-- The names and descriptors of the records of a listing. -/
def resolved (gv : GroupVersion) (text : String) (records : List Record) :
    List (String × Descriptor) :=
  resolve gv text (Record.rows records)

theorem names_resolved {name : String} :
    name ∈ (resolved gv text records).map Prod.fst ↔ Record.Names records name := by
  rw [← Record.mem_names_rows, resolved, resolve, List.map_map]
  rfl

/-- Of the records with one name the last is filed. -/
theorem get?_resolved {name : String} {r : Record} (last : Record.LastNamed records name r) :
    (Table.ofList (resolved gv text records)).get? name = some (r.resolve name gv text) := by
  obtain ⟨before, after, rfl, named, last⟩ := last
  refine Table.get?_ofList_eq_some_iff.2
    ⟨resolved gv text before, resolved gv text after, ?_, fun pair mem same => ?_⟩
  · simp [resolved, resolve, Record.rows_append, Record.rows_cons named]
  · have occurs : name ∈ (resolved gv text after).map Prod.fst :=
      List.mem_map.2 ⟨pair, mem, same⟩
    obtain ⟨s, there, also⟩ := names_resolved.1 occurs
    exact last s there also

theorem keys_topLevel {name : String} : name ∈ (topLevel (resolved gv text records)).keys ↔
    Record.Names records name ∧ '/' ∉ name.toList := by
  rw [topLevel, Table.mem_keys_ofList, keys_filter fun name => !isPath name, List.mem_filter,
    names_resolved, Bool.not_eq_true', isPath_eq_false_iff]

theorem keys_nested {path : String} : path ∈ (nested (resolved gv text records)).keys ↔
    Record.Names records path ∧ '/' ∈ path.toList := by
  rw [nested, Table.mem_keys_ofList, keys_filter isPath, List.mem_filter, names_resolved,
    isPath_iff]

theorem get?_topLevel {name : String} {r : Record} (last : Record.LastNamed records name r)
    (clear : '/' ∉ name.toList) :
    (topLevel (resolved gv text records)).get? name = some (r.resolve name gv text) := by
  have plain : (!isPath name) = true := by simpa [isPath_eq_false_iff] using clear
  rw [topLevel, Table.get?_ofList_filter (fun name => !isPath name), if_pos plain,
    get?_resolved last]

theorem get?_nested {path : String} {r : Record} (last : Record.LastNamed records path r)
    (slash : '/' ∈ path.toList) :
    (nested (resolved gv text records)).get? path = some (r.resolve path gv text) := by
  rw [nested, Table.get?_ofList_filter isPath, if_pos (isPath_iff.2 slash), get?_resolved last]

/-! ## Paths given to their owners -/

/-- What a path adds to the subresources of a resource. -/
def keyOf (owner path : String) : Option String :=
  match Text.cut? '/' path with
  | some (front, key) => if front = owner then some key else none
  | none => none

theorem keyOf_eq_some_iff {owner path key : String} :
    keyOf owner path = some key ↔ path = owner ++ "/" ++ key ∧ '/' ∉ owner.toList := by
  unfold keyOf
  constructor
  · intro found
    split at found
    · rename_i front back cut
      split at found
      · rename_i same
        subst same
        cases found
        exact eq_path_of_cut? cut
      · cases found
    · cases found
  · rintro ⟨rfl, clear⟩
    simp [cut?_path clear]

theorem get?_adopt (resources : Table String Descriptor) (path owner : String) :
    (adopt resources path).get? owner = (resources.get? owner).map fun d =>
      (keyOf owner path).toList.foldl Descriptor.addSubresource d := by
  cases cut : Text.cut? '/' path with
  | none => simp [adopt, keyOf, cut]
  | some parts =>
    obtain ⟨front, key⟩ := parts
    by_cases same : owner = front
    · simp [adopt, keyOf, cut, Table.get?_modify, same]
    · simp [adopt, keyOf, cut, Table.get?_modify, same, Ne.symm same]

theorem keys_foldl_adopt (paths : List String) (resources : Table String Descriptor) :
    (paths.foldl adopt resources).keys = resources.keys := by
  induction paths generalizing resources with
  | nil => rfl
  | cons path rest ih =>
    rw [List.foldl_cons, ih]
    unfold adopt
    split
    · rfl
    · rw [Table.keys_modify]

theorem get?_foldl_adopt (paths : List String) (resources : Table String Descriptor)
    (owner : String) :
    (paths.foldl adopt resources).get? owner = (resources.get? owner).map fun d =>
      (paths.filterMap (keyOf owner)).foldl Descriptor.addSubresource d := by
  induction paths generalizing resources with
  | nil => simp
  | cons path rest ih =>
    rw [List.foldl_cons, ih, get?_adopt, Option.map_map]
    cases found : keyOf owner path <;> simp [found, Function.comp_def]

theorem foldl_addSubresource (keys : List String) (d : Descriptor) :
    keys.foldl Descriptor.addSubresource d =
      { d with subresources := keys.foldl (fun set key => set.insert key) d.subresources } := by
  induction keys generalizing d with
  | nil => rfl
  | cons key rest ih => exact ih _

/-! ## The whole entry -/

/-- An entry files what the records of a listing say. -/
structure Files (entry : Entry) (gv : GroupVersion) (text : String) (records : List Record) :
    Prop where
  names : ∀ name, name ∈ entry.resources.keys ↔
    Record.Names records name ∧ '/' ∉ name.toList
  /-- A name has the metadata of its last record and a subresource for each path that it owns. -/
  resource : ∀ name r, Record.LastNamed records name r → '/' ∉ name.toList →
    ∃ d, entry.resources.get? name = some d ∧ r.Describes name gv text d ∧
      ∀ key, key ∈ d.subresources ↔ Record.Names records (name ++ "/" ++ key)
  paths : ∀ path, path ∈ entry.subresources.keys ↔
    Record.Names records path ∧ '/' ∈ path.toList
  /-- A path has the metadata of its last record and no subresources. -/
  subresource : ∀ path r, Record.LastNamed records path r → '/' ∈ path.toList →
    ∃ d, entry.subresources.get? path = some d ∧ r.Describes path gv text d ∧
      ∀ key, key ∉ d.subresources

/-- The subresources of a filed name are the paths that it owns. -/
theorem mem_keysOf {owner key : String} (clear : '/' ∉ owner.toList) :
    key ∈ (nested (resolved gv text records)).keys.filterMap (keyOf owner) ↔
      Record.Names records (owner ++ "/" ++ key) := by
  rw [List.mem_filterMap]
  constructor
  · rintro ⟨path, mem, found⟩
    obtain ⟨rfl, -⟩ := keyOf_eq_some_iff.1 found
    exact (keys_nested.1 mem).1
  · intro names
    exact ⟨_, keys_nested.2 ⟨names, by simp⟩, keyOf_eq_some_iff.2 ⟨rfl, clear⟩⟩

theorem files_ofResolved (gv : GroupVersion) (text : String) (records : List Record) :
    (ofResolved (resolved gv text records)).Files gv text records where
  names name := by
    simp only [ofResolved, keys_foldl_adopt]
    exact keys_topLevel
  resource name r last clear := by
    simp only [ofResolved, get?_foldl_adopt, get?_topLevel last clear, Option.map_some,
      foldl_addSubresource]
    refine ⟨_, rfl, (r.describes_resolve name gv text).withSubresources _, fun key => ?_⟩
    rw [TextSet.mem_foldl_insert, mem_keysOf clear]
    exact or_iff_left (TextSet.not_mem_empty key)
  paths path := keys_nested
  subresource path r last slash :=
    ⟨_, get?_nested last slash, r.describes_resolve path gv text, TextSet.not_mem_empty⟩

section

variable {entry : Entry} {d : Descriptor} (files : entry.Files gv text records)

include files

/-- A descriptor under a name is described by the last record of the name. -/
theorem Files.describes_resource {name : String} (found : entry.resources.get? name = some d) :
    '/' ∉ name.toList ∧ ∃ r, Record.LastNamed records name r ∧ r.Describes name gv text d := by
  have filed : name ∈ entry.resources.keys := by
    rw [Table.mem_keys_iff, found]
    rfl
  obtain ⟨names, clear⟩ := (files.names name).1 filed
  obtain ⟨r, last⟩ := Record.exists_lastNamed names
  obtain ⟨d', found', describes, -⟩ := files.resource name r last clear
  rw [found] at found'
  cases found'
  exact ⟨clear, r, last, describes⟩

/-- A descriptor under a path is described by the last record of the path. -/
theorem Files.describes_subresource {path : String}
    (found : entry.subresources.get? path = some d) :
    '/' ∈ path.toList ∧ ∃ r, Record.LastNamed records path r ∧ r.Describes path gv text d := by
  have filed : path ∈ entry.subresources.keys := by
    rw [Table.mem_keys_iff, found]
    rfl
  obtain ⟨names, slash⟩ := (files.paths path).1 filed
  obtain ⟨r, last⟩ := Record.exists_lastNamed names
  obtain ⟨d', found', describes, -⟩ := files.subresource path r last slash
  rw [found] at found'
  cases found'
  exact ⟨slash, r, last, describes⟩

end

theorem isOrphan_iff {resources : Table String Descriptor} {path : String} :
    isOrphan resources path = true ↔ ∃ owner key, path = owner ++ "/" ++ key ∧
      '/' ∉ owner.toList ∧ owner ∉ resources.keys := by
  constructor
  · intro orphan
    cases cut : Text.cut? '/' path with
    | none => simp [isOrphan, cut] at orphan
    | some parts =>
      obtain ⟨owner, key⟩ := parts
      obtain ⟨written, clear⟩ := eq_path_of_cut? cut
      refine ⟨owner, key, written, clear, fun filed => ?_⟩
      rw [← Table.contains_iff] at filed
      simp [isOrphan, cut, filed] at orphan
  · rintro ⟨owner, key, rfl, clear, missing⟩
    rw [← Table.contains_iff, Bool.not_eq_true] at missing
    simp [isOrphan, cut?_path clear, missing]

/-- The orphans are the paths whose owner is no name of the listing. -/
theorem mem_orphans {path : String} : path ∈ orphans (resolved gv text records) ↔
    Record.Names records path ∧ ∃ owner key, path = owner ++ "/" ++ key ∧
      '/' ∉ owner.toList ∧ ¬ Record.Names records owner := by
  rw [orphans, List.mem_filter, keys_nested, isOrphan_iff]
  constructor
  · rintro ⟨⟨names, -⟩, owner, key, written, clear, missing⟩
    exact ⟨names, owner, key, written, clear, fun filed => missing (keys_topLevel.2 ⟨filed, clear⟩)⟩
  · rintro ⟨names, owner, key, rfl, clear, missing⟩
    refine ⟨⟨names, by simp⟩, owner, key, rfl, clear, fun filed => missing (keys_topLevel.1 filed).1⟩

theorem nodup_orphans (resolved : List (String × Descriptor)) : (orphans resolved).Nodup :=
  (Table.nodup_keys _).filter _

end Entry

/-! ## Listings -/

/-- A listing that can be read is filed. -/
theorem Snapshot.assess_eq_filed {text : String} {gv : GroupVersion}
    (readable : GroupVersion.parse text = .ok gv) {records : List Record}
    (named : ∀ r ∈ records, r.name ≠ none) (strict : Bool) :
    assess strict ⟨some text, some records⟩ =
      .filed text (Entry.ofResolved (Entry.resolved gv text records))
        (Entry.orphans (Entry.resolved gv text records)) := by
  simp only [assess, readable, Record.named_eq_ok named]
  rfl

/-- A listing that can be read and whose records all have names. -/
def Listing.Sound (listing : Listing) : Prop :=
  ∃ text gv records, listing = ⟨some text, some records⟩ ∧ GroupVersion.parse text = .ok gv ∧
    ∀ r ∈ records, r.name ≠ none

/-- A sound listing is refused by no reader. -/
theorem Listing.Sound.unrefused {listing : Listing} (sound : listing.Sound) (strict : Bool)
    (why : Failure) : Snapshot.assess strict listing ≠ .refused why := by
  obtain ⟨text, gv, records, rfl, readable, named⟩ := sound
  rw [Snapshot.assess_eq_filed readable named strict]
  exact Snapshot.Assessment.noConfusion

/-- A listing under a group-version that can be read is filed unless it is refused. -/
theorem Snapshot.filed_of_unrefused {strict : Bool} {listing : Listing} {text : String}
    {gv : GroupVersion} (named : listing.groupVersion = some text)
    (readable : GroupVersion.parse text = .ok gv)
    (unrefused : ∀ why, assess strict listing ≠ .refused why) :
    ∃ records, listing = ⟨some text, some records⟩ ∧
      assess strict ⟨some text, some records⟩ =
        .filed text (Entry.ofResolved (Entry.resolved gv text records))
          (Entry.orphans (Entry.resolved gv text records)) := by
  obtain ⟨groupVersion, held⟩ := listing
  obtain rfl : groupVersion = some text := named
  cases held with
  | none => exact absurd (by simp [assess, readable]) (unrefused .wrongShape)
  | some records =>
    refine ⟨records, rfl, assess_eq_filed readable (fun r mem missing => ?_) strict⟩
    have nameless := Record.named_eq_error ⟨r, mem, missing⟩
    exact absurd (by simp [assess, readable, nameless]) (unrefused .wrongShape)

/-- What is filed comes of a listing that can be read. -/
theorem Snapshot.eq_of_assess_eq_filed {strict : Bool} {listing : Listing} {text : String}
    {entry : Entry} {orphans : List String}
    (filed : assess strict listing = .filed text entry orphans) :
    ∃ gv records, listing = ⟨some text, some records⟩ ∧ GroupVersion.parse text = .ok gv ∧
      entry = Entry.ofResolved (Entry.resolved gv text records) := by
  have named := groupVersion_of_assess filed
  cases read : GroupVersion.parse text with
  | error why => cases strict <;> simp [assess, named, read] at filed
  | ok gv =>
    obtain ⟨records, rfl, filed'⟩ := filed_of_unrefused named read fun why refused => by
      rw [filed] at refused
      cases refused
    rw [filed'] at filed
    cases filed
    exact ⟨gv, records, rfl, rfl, rfl⟩

/-- What is read under a group-version comes of its last listing. -/
theorem Snapshot.exists_listing_of_get? {strict : Bool} {listings : List Listing}
    {entries : Table String Entry} (indexed : (index strict (some listings)).result = .ok entries)
    {text : String} {entry : Entry} (found : entries.get? text = some entry) :
    ∃ before records after gv, listings = before ++ ⟨some text, some records⟩ :: after ∧
      (∀ l ∈ after, l.groupVersion ≠ some text) ∧ GroupVersion.parse text = .ok gv ∧
      entry = Entry.ofResolved (Entry.resolved gv text records) := by
  obtain ⟨unrefused, filed⟩ := result_index_eq_ok_iff.1 indexed
  -- some listing is filed under the group-version, so it can be read, and has a last listing
  obtain ⟨first, rest, split, -⟩ := Table.get?_ofList_eq_some_iff.1 (filed ▸ found)
  obtain ⟨witness, mem, orphans, assessed⟩ :=
    mem_filings.1 (split ▸ List.mem_append_right first List.mem_cons_self)
  obtain ⟨gv, -, -, readable, -⟩ := eq_of_assess_eq_filed assessed
  have listed : ∃ l ∈ listings, l.groupVersion = some text :=
    ⟨witness, mem, groupVersion_of_assess assessed⟩
  obtain ⟨before, listing, after, rfl, here, last⟩ := exists_last_of_exists listed
  obtain ⟨records, rfl, assessed'⟩ := filed_of_unrefused here readable
    (unrefused _ (List.mem_append_right before List.mem_cons_self))
  rw [get?_of_index assessed' last indexed] at found
  cases found
  exact ⟨before, records, after, gv, rfl, last, readable, rfl⟩

/-- Every group-version of an index can be read. -/
theorem Snapshot.exists_parse_of_mem_keys {strict : Bool} {listings : List Listing}
    {entries : Table String Entry} (indexed : (index strict (some listings)).result = .ok entries)
    {text : String} (mem : text ∈ entries.keys) : ∃ gv, GroupVersion.parse text = .ok gv := by
  obtain ⟨entry, filed⟩ := Option.isSome_iff_exists.1 ((Table.mem_keys_iff _ _).1 mem)
  obtain ⟨-, -, -, gv, -, -, readable, -⟩ := exists_listing_of_get? indexed filed
  exact ⟨gv, readable⟩

namespace Snapshot

section

variable {listings : List Listing} (sound : ∀ l ∈ listings, l.Sound)

include sound

/-- Sound listings are filed one by one, each under its group-version. -/
theorem groupVersions_filings (strict : Bool) :
    (filings strict listings).map (fun pair => some pair.1) = listings.map (·.groupVersion) := by
  induction listings with
  | nil => rfl
  | cons l rest ih =>
    obtain ⟨text, gv, records, rfl, readable, named⟩ := sound l List.mem_cons_self
    have filed := assess_eq_filed readable named strict
    have later := ih fun m mem => sound m (List.mem_cons_of_mem _ mem)
    simp only [filings, List.filterMap_cons, filed, List.map_cons]
    exact congrArg _ later

theorem mem_keys_filings {strict : Bool} {text : String} :
    text ∈ (Table.ofList (filings strict listings)).keys ↔
      some text ∈ listings.map (·.groupVersion) := by
  rw [Table.mem_keys_ofList, ← groupVersions_filings sound strict]
  simp

end

variable {τ : Type} {s : Snapshot τ} {entry : Entry} {gv : GroupVersion} {text : String}
  {records : List Record}

/-- A resource has exactly the subresources that are filed as its paths. -/
theorem hasSubresource_iff (files : entry.Files gv text records)
    (filed : s.groupVersions.get? text = some entry) (name key : String) :
    hasSubresource (s.get? text name) key = true ↔
      name ∈ entry.resources.keys ∧ name ++ "/" ++ key ∈ entry.subresources.keys := by
  have found : s.get? text name = entry.resources.get? name := by
    rw [get?, filed]
    rfl
  rw [found]
  by_cases there : name ∈ entry.resources.keys
  · obtain ⟨names, clear⟩ := (files.names name).1 there
    obtain ⟨r, last⟩ := Record.exists_lastNamed names
    obtain ⟨d, descriptor, -, subresources⟩ := files.resource name r last clear
    rw [descriptor, files.paths, hasSubresource, Descriptor.hasSubresource_iff, subresources key]
    simp [there]
  · rw [(Table.get?_eq_none_iff _ _).2 there]
    simp [hasSubresource, there]

/-- No path is found under its whole name. -/
theorem get?_path (files : entry.Files gv text records)
    (filed : s.groupVersions.get? text = some entry) {path : String}
    (slash : '/' ∈ path.toList) : s.get? text path = none := by
  rw [get?, filed, Option.bind_some, Table.get?_eq_none_iff]
  exact fun there => ((files.names path).1 there).2 slash

/-- A listing that can be read is filed exactly as its records say, whatever else is listed. -/
theorem listing_files {text : String} {gv : GroupVersion}
    (readable : GroupVersion.parse text = .ok gv) {records : List Record}
    (named : ∀ r ∈ records, r.name ≠ none) :
    ∃ (entry : Entry) (orphans : List String),
      -- what is built of the listing, by itself and among others
      (∀ strict, index strict (some [⟨some text, some records⟩]) =
        ⟨orphans.map (.orphan text), .ok (Table.empty.put text entry)⟩) ∧
      (∀ strict before after entries, (∀ l ∈ after, l.groupVersion ≠ some text) →
        (index strict (some (before ++ ⟨some text, some records⟩ :: after))).result = .ok entries →
          entries.get? text = some entry) ∧
      (∀ strict before after entries, (index strict (some before)).result = .ok entries →
        (index strict (some (before ++ ⟨some text, some records⟩ :: after))).remarks =
          (index strict (some before)).remarks ++ orphans.map (.orphan text) ++
            (index strict (some after)).remarks) ∧
      -- what it holds
      entry.Files gv text records ∧
      orphans.Nodup ∧
      (∀ path, path ∈ orphans ↔ Record.Names records path ∧
        ∃ owner key, path = owner ++ "/" ++ key ∧ '/' ∉ owner.toList ∧
          ¬ Record.Names records owner) ∧
      -- what is found in it
      ∀ s : Snapshot τ, s.groupVersions.get? text = some entry →
        (∀ name key, hasSubresource (s.get? text name) key = true ↔
          name ∈ entry.resources.keys ∧ name ++ "/" ++ key ∈ entry.subresources.keys) ∧
        ∀ path, '/' ∈ path.toList → s.get? text path = none := by
  have filed := assess_eq_filed readable named
  have files := Entry.files_ofResolved gv text records
  refine ⟨_, Entry.orphans (Entry.resolved gv text records), fun strict => ?_,
    fun strict before after entries others indexed => ?_,
    fun strict before after entries indexed => ?_, files, Entry.nodup_orphans _,
    fun path => Entry.mem_orphans,
    fun s there => ⟨hasSubresource_iff files there, fun path => get?_path files there⟩⟩
  · simp only [index, indexOnto, filed strict, List.append_nil]
  · exact get?_of_index (filed strict) others indexed
  · exact remarks_index (filed strict) indexed after

/-- A name that is repeated, a path before its owner, and a path without one: the name has the
metadata of its last record and its one path for a subresource, and the other path is remarked. -/
theorem listing_files_deployments :
    let first : Record := { name := "deployments", kind := "Deployments", verbs := ["get"] }
    let status : Record := { name := "deployments/status", kind := "Deployment", verbs := ["patch"] }
    let last : Record := {
      name := "deployments"
      kind := "Deployment"
      version := "v1beta1"
      namespaced := true
      verbs := ["get", "list"]
      shortNames := ["deploy"]
      singularName := "deployment"
      categories := ["all"] }
    let records := [first, status, { name := "pods/log", kind := "Pod" }, last]
    GroupVersion.parse "apps/v1" = .ok ⟨"apps", "v1"⟩ ∧ (∀ r ∈ records, r.name ≠ none) ∧
      ∃ entry : Entry, entry.Files ⟨"apps", "v1"⟩ "apps/v1" records ∧
        index true (some [⟨"apps/v1", records⟩]) =
          ⟨[.orphan "apps/v1" "pods/log"], .ok (Table.empty.put "apps/v1" entry)⟩ ∧
        entry.resources.get? "deployments" = some {
          name := "deployments"
          kind := "Deployment"
          group := "apps"
          version := "v1beta1"
          apiVersion := "apps/v1"
          namespaced := true
          verbs := ["get", "list"]
          shortNames := ["deploy"]
          singularName := "deployment"
          categories := ["all"]
          subresources := .ofList ["status"] } ∧
        entry.subresources.get? "deployments/status" = some {
          name := "deployments/status"
          kind := "Deployment"
          group := "apps"
          version := "v1"
          apiVersion := "apps/v1"
          verbs := ["patch"] } := by
  intro first status last records
  have readable : GroupVersion.parse "apps/v1" = .ok ⟨"apps", "v1"⟩ := by decide
  have named : ∀ r ∈ records, r.name ≠ none := by decide
  obtain ⟨entry, orphans, built, -, -, files, -⟩ := listing_files (τ := Int) readable named
  have remarks : orphans.map (.orphan "apps/v1") = [Remark.orphan "apps/v1" "pods/log"] := by
    have read : (index true (some [⟨"apps/v1", records⟩])).remarks =
        [.orphan "apps/v1" "pods/log"] := by decide
    rwa [built true] at read
  obtain ⟨d, found, describes, keys⟩ := files.resource "deployments" last
    ⟨[first, status, { name := "pods/log", kind := "Pod" }], [], rfl, rfl, nofun⟩ (by decide)
  obtain ⟨e, found', describes', none⟩ := files.subresource "deployments/status" status
    ⟨[first], [{ name := "pods/log", kind := "Pod" }, last], rfl, rfl, by decide⟩ (by decide)
  -- of the records only the second has a name that the deployments own
  have owned : ∀ key, Record.Names records ("deployments" ++ "/" ++ key) ↔ key = "status" := by
    intro key
    have cuts : ∀ r ∈ records, (r.name.bind (Text.cut? '/')).all fun parts =>
        parts.1 = "deployments" → parts.2 = "status" := by decide
    constructor
    · rintro ⟨r, mem, is⟩
      have cut := cuts r mem
      rw [is, Option.bind_some, cut?_path (by decide)] at cut
      simpa using cut
    · rintro rfl
      exact ⟨status, by simp [records], rfl⟩
  refine ⟨readable, named, entry, files, by rw [built true, remarks], ?_, ?_⟩
  · rw [found]
    refine congrArg some (describes.eq ⟨rfl, rfl, rfl, rfl, rfl, rfl, rfl, rfl, rfl, rfl⟩ ?_)
    ext key
    rw [keys, owned, TextSet.mem_ofList, List.mem_singleton]
  · rw [found']
    refine congrArg some (describes'.eq ⟨rfl, rfl, rfl, rfl, rfl, rfl, rfl, rfl, rfl, rfl⟩ ?_)
    ext key
    exact iff_of_false (none key) (TextSet.not_mem_empty key)

end Snapshot

end ApiCatalog
