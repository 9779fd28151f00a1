/-
# ApiCatalog.Proofs.Indexing -- how indexing goes through its listings

* `refusal_of_index`: the three causes for which indexing may stop;
* `get?_of_index`: a listing is filed under its group-version, unless a later one
  takes its place;
* `remarks_index`: what is remarked of a listing stands between what is remarked
  of those before it and of those after it;
* `result_index_eq_ok_iff`: indexing goes through when no listing is refused, and
  then files each of them under its group-version, in order;
* `result_index_eq_error_iff`: otherwise it stops at the first that is refused;
* `remarks_index_eq_flatMap`: it remarks of every listing before that one, in
  order.
-/
import ApiCatalog.Snapshot

namespace ApiCatalog

set_option autoImplicit false

/-- Naming records fails only by a null name. -/
theorem Record.wrongShape_of_named {records : List Record} {why : Failure}
    (failed : Record.named records = .error why) : why = .wrongShape := by
  induction records with
  | nil => cases failed
  | cons r rest ih =>
    simp only [Record.named] at failed
    split at failed
    · cases failed
      rfl
    · cases later : Record.named rest with
      | error why' =>
        rw [later] at failed
        cases failed
        exact ih later
      | ok named =>
        rw [later] at failed
        cases failed

/-- Naming records fails if one of them has a null name. -/
theorem Record.named_eq_error {records : List Record} (nameless : ∃ r ∈ records, r.name = none) :
    Record.named records = .error .wrongShape := by
  induction records with
  | nil =>
    obtain ⟨r, mem, -⟩ := nameless
    cases mem
  | cons first rest ih =>
    cases there : first.name with
    | none => simp only [Record.named, there]
    | some name =>
      have later : ∃ r ∈ rest, r.name = none := by
        obtain ⟨r, mem, missing⟩ := nameless
        rcases List.mem_cons.1 mem with rfl | mem
        · rw [there] at missing
          cases missing
        · exact ⟨r, mem, missing⟩
      simp only [Record.named, there, ih later]
      rfl

namespace Snapshot

/-- A cause for which indexing may stop: a group-version that cannot be read, or a value that has
not the shape that it must have. -/
def Refusal (why : Failure) : Prop :=
  (∃ cause, why = .malformed cause) ∨ why = .missingField ∨ why = .wrongShape

theorem refusal_of_assess {strict : Bool} {listing : Listing} {why : Failure}
    (refused : assess strict listing = .refused why) : Refusal why := by
  unfold assess at refused
  split at refused
  · cases refused
    exact .inr (.inl rfl)
  · split at refused
    · rename_i cause _
      split at refused
      · cases refused
        exact .inl ⟨cause, rfl⟩
      · cases refused
    · split at refused
      · cases refused
        exact .inr (.inr rfl)
      · split at refused
        · rename_i why' named
          cases refused
          exact .inr (.inr (Record.wrongShape_of_named named))
        · cases refused

theorem refusal_of_indexOnto {strict : Bool} {listings : List Listing} {why : Failure} :
    ∀ {entries : Table String Entry},
      (indexOnto strict entries listings).result = .error why → Refusal why := by
  induction listings with
  | nil => intro entries failed; cases failed
  | cons listing rest ih =>
    intro entries failed
    simp only [indexOnto] at failed
    split at failed
    · rename_i why' refused
      cases failed
      exact refusal_of_assess refused
    · exact ih failed
    · exact ih failed

/-- Indexing stops only for a refusal. -/
theorem refusal_of_index {strict : Bool} {listings : Option (List Listing)} {why : Failure}
    (failed : (index strict listings).result = .error why) : Refusal why := by
  cases listings with
  | none =>
    cases failed
    exact .inr (.inr rfl)
  | some listings => exact refusal_of_indexOnto failed

/-! ## One listing among others -/

/-- A listing is filed under its own group-version. -/
theorem groupVersion_of_assess {strict : Bool} {listing : Listing} {text : String} {entry : Entry}
    {orphans : List String} (filed : assess strict listing = .filed text entry orphans) :
    listing.groupVersion = some text := by
  unfold assess at filed
  split at filed
  · cases filed
  · rename_i text' groupVersion
    repeat' split at filed
    all_goals cases filed
    exact groupVersion

/-- What is filed under a group-version stays as long as no other listing has it. -/
theorem get?_of_others {strict : Bool} {text : String} {listings : List Listing}
    (others : ∀ l ∈ listings, l.groupVersion ≠ some text) :
    ∀ {entries entries' : Table String Entry},
      (indexOnto strict entries listings).result = .ok entries' →
        entries'.get? text = entries.get? text := by
  induction listings with
  | nil =>
    intro entries entries' indexed
    cases indexed
    rfl
  | cons listing rest ih =>
    intro entries entries' indexed
    have later : ∀ l ∈ rest, l.groupVersion ≠ some text := fun l mem =>
      others l (List.mem_cons_of_mem _ mem)
    simp only [indexOnto] at indexed
    split at indexed
    · cases indexed
    · exact ih later indexed
    · rename_i text' entry orphans filed
      have other : text ≠ text' := by
        rintro rfl
        exact others listing List.mem_cons_self (groupVersion_of_assess filed)
      rw [ih later indexed, Table.get?_put, if_neg other]

section

variable {strict : Bool} {listing : Listing} {text : String} {entry : Entry}
  {orphans : List String} (filed : assess strict listing = .filed text entry orphans)

include filed

theorem get?_of_indexOnto {after : List Listing}
    (others : ∀ l ∈ after, l.groupVersion ≠ some text) (before : List Listing) :
    ∀ {entries entries' : Table String Entry},
      (indexOnto strict entries (before ++ listing :: after)).result = .ok entries' →
        entries'.get? text = some entry := by
  induction before with
  | nil =>
    intro entries entries' indexed
    simp only [List.nil_append, indexOnto, filed] at indexed
    rw [get?_of_others others indexed, Table.get?_put_self]
  | cons first before ih =>
    intro entries entries' indexed
    simp only [List.cons_append, indexOnto] at indexed
    split at indexed
    · cases indexed
    · exact ih indexed
    · exact ih indexed

/-- The last listing of a group-version is filed under it. -/
theorem get?_of_index {before after : List Listing}
    (others : ∀ l ∈ after, l.groupVersion ≠ some text) {entries : Table String Entry}
    (indexed : (index strict (some (before ++ listing :: after))).result = .ok entries) :
    entries.get? text = some entry :=
  get?_of_indexOnto filed others before indexed

end

/-- What is remarked depends on no entries. -/
theorem remarks_indexOnto (strict : Bool) (listings : List Listing) :
    ∀ entries : Table String Entry,
      (indexOnto strict entries listings).remarks = (index strict (some listings)).remarks := by
  have same : ∀ entries entries' : Table String Entry,
      (indexOnto strict entries listings).remarks =
        (indexOnto strict entries' listings).remarks := by
    induction listings with
    | nil => exact fun _ _ => rfl
    | cons listing rest ih =>
      intro entries entries'
      simp only [indexOnto]
      cases assess strict listing with
      | refused why => rfl
      | skipped why => simp only [ih entries entries']
      | filed text entry orphans =>
        simp only [ih (entries.put text entry) (entries'.put text entry)]
  exact fun entries => same entries .empty

section

variable {strict : Bool} {listing : Listing} {text : String} {entry : Entry}
  {orphans : List String} (filed : assess strict listing = .filed text entry orphans)

include filed

theorem remarks_index_append (before after : List Listing) :
    ∀ {entries entries' : Table String Entry},
      (indexOnto strict entries before).result = .ok entries' →
        (indexOnto strict entries (before ++ listing :: after)).remarks =
          (indexOnto strict entries before).remarks ++ orphans.map (.orphan text) ++
            (index strict (some after)).remarks := by
  induction before with
  | nil =>
    intro entries entries' indexed
    simp only [List.nil_append, indexOnto, filed, remarks_indexOnto]
  | cons first before ih =>
    intro entries entries' indexed
    simp only [List.cons_append, indexOnto] at indexed ⊢
    split at indexed
    · cases indexed
    · simp only [ih indexed, List.cons_append]
    · simp only [ih indexed, List.append_assoc]

/-- Of a listing are remarked its orphans, in its place among the others. -/
theorem remarks_index {before : List Listing} {entries : Table String Entry}
    (indexed : (index strict (some before)).result = .ok entries) (after : List Listing) :
    (index strict (some (before ++ listing :: after))).remarks =
      (index strict (some before)).remarks ++ orphans.map (.orphan text) ++
        (index strict (some after)).remarks :=
  remarks_index_append filed before after indexed

end

/-! ## All listings together -/

/-- What is filed of some listings, each entry with its group-version, in order. -/
def filings (strict : Bool) (listings : List Listing) : List (String × Entry) :=
  listings.filterMap fun listing =>
    match assess strict listing with
    | .filed text entry _ => some (text, entry)
    | _ => none

theorem mem_filings {strict : Bool} {listings : List Listing} {text : String} {entry : Entry} :
    (text, entry) ∈ filings strict listings ↔
      ∃ listing ∈ listings, ∃ orphans, assess strict listing = .filed text entry orphans := by
  rw [filings, List.mem_filterMap]
  refine exists_congr fun listing => and_congr_right fun _ => ?_
  cases assess strict listing <;> simp

theorem result_indexOnto_eq_ok_iff {strict : Bool} {listings : List Listing} :
    ∀ {entries entries' : Table String Entry},
      (indexOnto strict entries listings).result = .ok entries' ↔
        (∀ listing ∈ listings, ∀ why, assess strict listing ≠ .refused why) ∧
          entries' = entries.putAll (filings strict listings) := by
  induction listings with
  | nil =>
    intro entries entries'
    simp [indexOnto, filings, eq_comm]
  | cons listing rest ih =>
    intro entries entries'
    cases assessed : assess strict listing with
    | refused why => simp [indexOnto, assessed]
    | skipped why => simp [indexOnto, filings, assessed, ih]
    | filed text entry orphans => simp [indexOnto, filings, assessed, ih]

/-- Indexing goes through when no listing is refused, and then files them all. -/
theorem result_index_eq_ok_iff {strict : Bool} {listings : List Listing}
    {entries : Table String Entry} :
    (index strict (some listings)).result = .ok entries ↔
      (∀ listing ∈ listings, ∀ why, assess strict listing ≠ .refused why) ∧
        entries = .ofList (filings strict listings) :=
  result_indexOnto_eq_ok_iff

/-! ## Where indexing stops -/

theorem result_indexOnto_eq_error_iff {strict : Bool} {listings : List Listing} {why : Failure} :
    ∀ {entries : Table String Entry}, (indexOnto strict entries listings).result = .error why ↔
      ∃ before listing after, listings = before ++ listing :: after ∧
        (∀ l ∈ before, ∀ why', assess strict l ≠ .refused why') ∧
        assess strict listing = .refused why := by
  induction listings with
  | nil =>
    intro entries
    simp [indexOnto]
  | cons first rest ih =>
    intro entries
    -- a first listing that is not refused stands before the one that is
    have later (passed : ∀ why', assess strict first ≠ .refused why') :
        (∃ before listing after, rest = before ++ listing :: after ∧
          (∀ l ∈ before, ∀ why', assess strict l ≠ .refused why') ∧
          assess strict listing = .refused why) ↔
        ∃ before listing after, first :: rest = before ++ listing :: after ∧
          (∀ l ∈ before, ∀ why', assess strict l ≠ .refused why') ∧
          assess strict listing = .refused why := by
      constructor
      · rintro ⟨before, listing, after, rfl, clear, refused⟩
        exact ⟨first :: before, listing, after, rfl, List.forall_mem_cons.2 ⟨passed, clear⟩,
          refused⟩
      · rintro ⟨before, listing, after, written, clear, refused⟩
        cases before with
        | nil =>
          obtain ⟨rfl, -⟩ := List.cons.inj written
          exact absurd refused (passed why)
        | cons first' before =>
          obtain ⟨rfl, rfl⟩ := List.cons.inj written
          exact ⟨before, listing, after, rfl, (List.forall_mem_cons.1 clear).2, refused⟩
    cases assessed : assess strict first with
    | refused cause =>
      simp only [indexOnto, assessed, Except.error.injEq]
      constructor
      · rintro rfl
        exact ⟨[], first, rest, rfl, fun l mem => absurd mem List.not_mem_nil, assessed⟩
      · rintro ⟨before, listing, after, written, clear, refused⟩
        cases before with
        | nil =>
          obtain ⟨rfl, -⟩ := List.cons.inj written
          rw [assessed] at refused
          cases refused
          rfl
        | cons first' before =>
          obtain ⟨rfl, -⟩ := List.cons.inj written
          exact absurd assessed (clear first List.mem_cons_self cause)
    | skipped cause =>
      simp only [indexOnto, assessed, ih]
      exact later fun why' same => by rw [assessed] at same; cases same
    | filed text entry orphans =>
      simp only [indexOnto, assessed, ih]
      exact later fun why' same => by rw [assessed] at same; cases same

/-- Indexing stops at the first listing that is refused, for its cause. -/
theorem result_index_eq_error_iff {strict : Bool} {listings : List Listing} {why : Failure} :
    (index strict (some listings)).result = .error why ↔
      ∃ before listing after, listings = before ++ listing :: after ∧
        (∀ l ∈ before, ∀ why', assess strict l ≠ .refused why') ∧
        assess strict listing = .refused why :=
  result_indexOnto_eq_error_iff

/-- What is remarked of one listing. -/
def Assessment.remarks : Assessment → List Remark
  | .refused _ => []
  | .skipped why => [.skipped why]
  | .filed text _ orphans => orphans.map (.orphan text)

/-- Whether indexing goes on after a listing. -/
def Assessment.passes : Assessment → Bool
  | .refused _ => false
  | .skipped _ | .filed .. => true

/-- Remarks are made of the listings before the first that is refused, in order. -/
theorem remarks_index_eq_flatMap (strict : Bool) (listings : List Listing) :
    (index strict (some listings)).remarks =
      (listings.takeWhile fun l => (assess strict l).passes).flatMap
        fun l => (assess strict l).remarks := by
  induction listings with
  | nil => rfl
  | cons first rest ih =>
    cases assessed : assess strict first with
    | refused why => simp [index, indexOnto, assessed, Assessment.passes]
    | skipped why =>
      have goesOn : (assess strict first).passes = true := by rw [assessed]; rfl
      rw [List.takeWhile_cons, if_pos goesOn, List.flatMap_cons, ← ih, assessed]
      simp only [index, indexOnto, assessed]
      rfl
    | filed text entry orphans =>
      have goesOn : (assess strict first).passes = true := by rw [assessed]; rfl
      rw [List.takeWhile_cons, if_pos goesOn, List.flatMap_cons, ← ih, assessed]
      simp only [index, indexOnto, assessed, remarks_indexOnto]
      rfl

end Snapshot

end ApiCatalog
