/-
# ApiCatalog.Proofs.Overlay -- an enumeration in two parts

Indexing builds a table of a list of listings, and takes appending to overlaying:
what is built of two lists, one after the other, is what is built of the second put
over what is built of the first (`build_append`).  If one of them stops, so does the
whole, for the same failure, that of the first list before that of the second.

`Table.overlay` puts whole entries.  The entry of a group-version is replaced and
never merged, so under a group-version stands what its last listing gives when it
is indexed by itself, whatever else is listed (`build_overlays`).
-/
import ApiCatalog.Proofs.EntryIndex

namespace ApiCatalog

set_option autoImplicit false

/-! ## One table over another -/

attribute [ext] Table

namespace Table

variable {κ α : Type} [DecidableEq κ]

/-- A table with all pairs of another put into it. -/
def overlay (below above : Table κ α) : Table κ α := below.putAll above.entries

/-- What is read is what stands above, or else what stands below. -/
theorem get?_overlay (below above : Table κ α) (k : κ) :
    (below.overlay above).get? k = (above.get? k).or (below.get? k) := by
  have own : above.entries.reverse.lookup k = above.get? k := by
    rw [← get?_ofList]
    ext v
    rw [get?_ofList_of_distinct above.distinct, get?_eq_some_iff_mem]
  rw [overlay, get?_putAll, own]

theorem putPair_putPair (k : κ) (v w : α) (pairs : List (κ × α)) :
    putPair k w (putPair k v pairs) = putPair k w pairs := by
  induction pairs with
  | nil => simp [putPair]
  | cons pair rest ih =>
    obtain ⟨k', v'⟩ := pair
    by_cases same : k' = k
    · simp [putPair, same]
    · simp [putPair, same, ih]

theorem putPair_comm {k k' : κ} (other : k' ≠ k) (v w : α) {pairs : List (κ × α)}
    (old : k ∈ pairs.map Prod.fst) :
    putPair k w (putPair k' v pairs) = putPair k' v (putPair k w pairs) := by
  induction pairs with
  | nil => cases old
  | cons pair rest ih =>
    obtain ⟨a, b⟩ := pair
    by_cases first : a = k'
    · subst first
      simp [putPair, other]
    · by_cases second : a = k
      · subst second
        simp [putPair, first]
      · have later : k ∈ rest.map Prod.fst := by simpa [Ne.symm second] using old
        simp [putPair, first, second, ih later]

theorem put_put (t : Table κ α) (k : κ) (v w : α) : (t.put k v).put k w = t.put k w :=
  Table.ext (putPair_putPair k v w t.entries)

/-- A write in place may come before writes under other keys. -/
theorem put_putAll {t : Table κ α} {k : κ} (old : k ∈ t.keys) (w : α) {pairs : List (κ × α)}
    (others : k ∉ pairs.map Prod.fst) : (t.putAll pairs).put k w = (t.put k w).putAll pairs := by
  induction pairs generalizing t with
  | nil => rfl
  | cons pair rest ih =>
    obtain ⟨k', v⟩ := pair
    obtain ⟨other, later⟩ : k ≠ k' ∧ k ∉ rest.map Prod.fst := by simpa using others
    have there : k ∈ (t.put k' v).keys := (mem_keys_put t k' k v).2 (.inr old)
    have swapped : (t.put k' v).put k w = (t.put k w).put k' v :=
      Table.ext (putPair_comm (Ne.symm other) v w old)
    rw [putAll_cons, ih there later, swapped, putAll_cons]

theorem putAll_putPair {k : κ} {v : α} {pairs : List (κ × α)}
    (distinct : (pairs.map Prod.fst).Nodup) :
    ∀ t : Table κ α, t.putAll (putPair k v pairs) = (t.putAll pairs).put k v := by
  induction pairs with
  | nil => exact fun t => rfl
  | cons pair rest ih =>
    intro t
    obtain ⟨k', v'⟩ := pair
    obtain ⟨fresh, later⟩ : k' ∉ rest.map Prod.fst ∧ (rest.map Prod.fst).Nodup := by
      simpa using distinct
    by_cases same : k' = k
    · subst same
      have there : k' ∈ (t.put k' v').keys := (mem_keys_put t k' k' v').2 (.inl rfl)
      rw [putAll_cons, put_putAll there v fresh, put_put, putPair, if_pos rfl, putAll_cons]
    · rw [putPair, if_neg same, putAll_cons, putAll_cons, ih later]

theorem overlay_putAll (below above : Table κ α) (pairs : List (κ × α)) :
    below.overlay (above.putAll pairs) = (below.overlay above).putAll pairs := by
  induction pairs generalizing above with
  | nil => rfl
  | cons pair rest ih =>
    rw [putAll_cons, ih, putAll_cons]
    exact congrArg (putAll · rest) (putAll_putPair above.distinct below)

/-- Pairs may be gathered in a table of their own before they are put. -/
theorem overlay_ofList (below : Table κ α) (pairs : List (κ × α)) :
    below.overlay (ofList pairs) = below.putAll pairs :=
  overlay_putAll below empty pairs

end Table

namespace Snapshot

/-- What is built of some listings, unless one of them is refused. -/
def build (strict : Bool) (listings : List Listing) : Except Failure (Table String Entry) :=
  (index strict (some listings)).result

variable {strict : Bool}

/-! ## One list after another -/

theorem result_indexOnto_append (first second : List Listing) :
    ∀ entries : Table String Entry, (indexOnto strict entries (first ++ second)).result =
      (indexOnto strict entries first).result.bind fun below =>
        (indexOnto strict below second).result := by
  induction first with
  | nil => exact fun entries => rfl
  | cons listing rest ih =>
    intro entries
    simp only [List.cons_append, indexOnto]
    cases assess strict listing with
    | refused why => rfl
    | skipped why => exact ih entries
    | filed text entry orphans => exact ih (entries.put text entry)

/-- What is indexed on top of some entries is built by itself and put over them. -/
theorem result_indexOnto (entries : Table String Entry) (listings : List Listing) :
    (indexOnto strict entries listings).result = (build strict listings).map entries.overlay := by
  cases built : build strict listings with
  | ok above =>
    obtain ⟨unrefused, rfl⟩ := result_index_eq_ok_iff.1 built
    exact result_indexOnto_eq_ok_iff.2 ⟨unrefused, Table.overlay_ofList entries _⟩
  | error why => exact result_indexOnto_eq_error_iff.2 (result_index_eq_error_iff.1 built)

/-- Building takes appending to overlaying. -/
theorem build_append (first second : List Listing) :
    build strict (first ++ second) =
      (build strict first).bind fun below => (build strict second).map below.overlay := by
  simp only [← result_indexOnto]
  exact result_indexOnto_append first second .empty

/-! ## One group-version -/

section

variable {listings : List Listing} {entries : Table String Entry} {text : String}
  (built : build strict listings = .ok entries)

include built

/-- Every group-version that is listed and can be read has an entry. -/
theorem mem_keys_of_readable {gv : GroupVersion} (readable : GroupVersion.parse text = .ok gv)
    (listed : ∃ l ∈ listings, l.groupVersion = some text) : text ∈ entries.keys := by
  obtain ⟨unrefused, rfl⟩ := result_index_eq_ok_iff.1 built
  obtain ⟨listing, mem, named⟩ := listed
  obtain ⟨records, rfl, filed⟩ := filed_of_unrefused named readable (unrefused listing mem)
  have put := mem_filings.2 ⟨_, mem, _, filed⟩
  exact (Table.mem_keys_ofList _ _).2 (List.mem_map_of_mem put)

/-- A group-version that cannot be read has none. -/
theorem get?_of_unreadable (unread : ∀ gv, GroupVersion.parse text ≠ .ok gv) :
    entries.get? text = none := by
  refine (Table.get?_eq_none_iff entries text).2 fun mem => ?_
  obtain ⟨gv, readable⟩ := exists_parse_of_mem_keys built mem
  exact unread gv readable

end

/-- The last listing of a group-version gives its entry, as when it is indexed by itself. -/
theorem exists_alone {before after : List Listing} {listing : Listing} {text : String}
    {entries : Table String Entry} (named : listing.groupVersion = some text)
    (last : ∀ l ∈ after, l.groupVersion ≠ some text)
    (built : build strict (before ++ listing :: after) = .ok entries) :
    ∃ alone, build strict [listing] = .ok alone ∧ entries.get? text = alone.get? text := by
  have unrefused : ∀ why, assess strict listing ≠ .refused why :=
    (result_index_eq_ok_iff.1 built).1 listing (by simp)
  have alone : build strict [listing] = .ok (.ofList (filings strict [listing])) :=
    result_index_eq_ok_iff.2 ⟨by simpa using unrefused, rfl⟩
  refine ⟨_, alone, ?_⟩
  cases read : GroupVersion.parse text with
  | ok gv =>
    obtain ⟨records, rfl, filed⟩ := filed_of_unrefused named read unrefused
    have single : build strict ([] ++ ⟨some text, some records⟩ :: []) = _ := alone
    rw [get?_of_index filed last built, get?_of_index filed (by simp) single]
  | error why =>
    have unread : ∀ gv, GroupVersion.parse text ≠ .ok gv := by simp [read]
    rw [get?_of_unreadable built unread, get?_of_unreadable alone unread]

/-- A listing that can be read is filed also where it holds no records. -/
theorem build_blank {text : String} {gv : GroupVersion}
    (readable : GroupVersion.parse text = .ok gv) : build strict [⟨some text, some []⟩] =
      .ok (Table.empty.put text ⟨.empty, .empty, .empty⟩) := by
  have named : ∀ r ∈ ([] : List Record), r.name ≠ none := by simp
  have filed := assess_eq_filed readable named strict
  simp only [build, index, indexOnto, filed]
  rfl

/-- Building two lists one after the other overlays what is built of each, and what is filed under a
group-version is decided by its last listing alone. -/
theorem build_overlays (strict : Bool) :
    -- of two lists, the first that fails decides; if neither does, the second lies over the first
    (∀ first second why, build strict first = .error why →
      build strict (first ++ second) = .error why) ∧
    (∀ first second below why, build strict first = .ok below → build strict second = .error why →
      build strict (first ++ second) = .error why) ∧
    (∀ first second below above, build strict first = .ok below →
      build strict second = .ok above →
        build strict (first ++ second) = .ok (below.overlay above) ∧
        ∀ text, (below.overlay above).get? text = (above.get? text).or (below.get? text)) ∧
    -- under a group-version stands what its last listing gives by itself, and else nothing
    (∀ before listing after text entries, listing.groupVersion = some text →
      (∀ l ∈ after, l.groupVersion ≠ some text) →
      build strict (before ++ listing :: after) = .ok entries →
        ∃ alone, build strict [listing] = .ok alone ∧ entries.get? text = alone.get? text) ∧
    (∀ listings text entries, (∀ l ∈ listings, l.groupVersion ≠ some text) →
      build strict listings = .ok entries → entries.get? text = none) ∧
    -- a listing without records has an entry like any other
    ∀ text gv, GroupVersion.parse text = .ok gv →
      build strict [⟨some text, some []⟩] =
        .ok (Table.empty.put text ⟨.empty, .empty, .empty⟩) ∧
      ∀ listings entries, ⟨some text, some []⟩ ∈ listings → build strict listings = .ok entries →
        text ∈ entries.keys := by
  refine ⟨fun first second why failed => ?_, fun first second below why built failed => ?_,
    fun first second below above built built' => ⟨?_, Table.get?_overlay below above⟩,
    fun before listing after text entries => exists_alone,
    fun listings text entries others built => ?_,
    fun text gv readable => ⟨build_blank readable, fun listings entries mem built => ?_⟩⟩
  · rw [build_append, failed]
    rfl
  · rw [build_append, built, failed]
    rfl
  · rw [build_append, built, built']
    rfl
  · rw [get?_of_others others built, Table.get?_empty]
  · exact mem_keys_of_readable built readable ⟨_, mem, rfl⟩

/-- A listing without records empties the entry that the same group-version had before. -/
theorem build_overlays_emptied :
    let deployments : Listing :=
      ⟨"apps/v1", some [{ name := "deployments", kind := "Deployment" }]⟩
    let emptied : Listing := ⟨"apps/v1", some []⟩
    ∃ below above, build true [deployments] = .ok below ∧ build true [emptied] = .ok above ∧
      build true ([deployments] ++ [emptied]) = .ok (below.overlay above) ∧
      (below.get? "apps/v1").map (·.resources.keys) = some ["deployments"] ∧
      ((below.overlay above).get? "apps/v1").map (·.resources.keys) = some [] := by
  intro deployments emptied
  obtain ⟨below, built, held⟩ : ∃ below, build true [deployments] = .ok below ∧
      (below.get? "apps/v1").map (·.resources.keys) = some ["deployments"] :=
    ⟨_, rfl, by decide⟩
  obtain ⟨-, -, overlaid, -, -, blank⟩ := build_overlays true
  obtain ⟨built', -⟩ := blank "apps/v1" ⟨"apps", "v1"⟩ rfl
  obtain ⟨whole, read⟩ := overlaid [deployments] [emptied] below _ built built'
  refine ⟨below, _, built, built', whole, held, ?_⟩
  rw [read, Table.get?_put_self]
  rfl

end Snapshot

end ApiCatalog
