/-
# ApiCatalog.Proofs.Leniency -- lenient indexing is strict indexing of what can be read

A listing is *illegible* when its group-version is a text that cannot be read
(`Listing.fault?`), whatever its records are.  It *fails* when its group-version
is null, or can be read but stands before null records or a record with a null
name (`Listing.failure?`).  No listing is both, and neither notion knows of
strictness.

The two readers differ in illegible listings alone: the strict one stops there
with a breach of the contract, the lenient one leaves the listing out with one
warning.  So a lenient run over some listings is the strict run over those of
them that can be read (`index_lenient`): the same table, or the same failure,
and the same remarks once the warnings are taken away.

Illegible listings after the first that fails are not reached, and get no
warning.
-/
import ApiCatalog.Proofs.EntryIndex
import ApiCatalog.Report.Events

namespace ApiCatalog

set_option autoImplicit false

namespace Listing

/-- What is wrong with the group-version text of a listing.  A null one is no text, and is no fault
of this sort. -/
def fault? (listing : Listing) : Option Malformed :=
  match listing.groupVersion.map GroupVersion.parse with
  | some (.error why) => some why
  | _ => none

/-- Why a listing stops the run for a strict and for a lenient reader alike. -/
def failure? (listing : Listing) : Option Failure :=
  match listing.groupVersion.map GroupVersion.parse, listing.records with
  | none, _ => some .missingField
  | some (.error _), _ => none
  | some (.ok _), none => some .wrongShape
  | some (.ok _), some records =>
    if records.any (·.name.isNone) then some .wrongShape else none

theorem fault?_eq_some_iff {listing : Listing} {why : Malformed} :
    listing.fault? = some why ↔
      ∃ text, listing.groupVersion = some text ∧ GroupVersion.parse text = .error why := by
  obtain ⟨_ | text, records⟩ := listing
  · simp [fault?]
  · cases read : GroupVersion.parse text <;> simp [fault?, read]

/-- A listing fails by a null group-version, or by null records or names under one that can be
read. -/
theorem failure?_eq_some_iff {listing : Listing} {why : Failure} :
    listing.failure? = some why ↔
      (listing.groupVersion = none ∧ why = .missingField) ∨
        ∃ text gv, listing.groupVersion = some text ∧ GroupVersion.parse text = .ok gv ∧
          (∀ records, listing.records = some records → ∃ r ∈ records, r.name = none) ∧
          why = .wrongShape := by
  obtain ⟨_ | text, records⟩ := listing
  · simp [failure?, eq_comm]
  · cases read : GroupVersion.parse text with
    | error fault => simp [failure?, read]
    | ok gv =>
      cases records with
      | none => simp [failure?, read, eq_comm]
      | some records => simp [failure?, read, eq_comm (a := Failure.wrongShape)]

theorem failure?_of_fault? {listing : Listing} {why : Malformed}
    (illegible : listing.fault? = some why) : listing.failure? = none := by
  obtain ⟨text, written, unread⟩ := fault?_eq_some_iff.1 illegible
  simp [failure?, written, unread]

/-- The remaining listings can be read, and hold records that all have names. -/
theorem sound_of_none {listing : Listing} (readable : listing.fault? = none)
    (sound : listing.failure? = none) : listing.Sound := by
  obtain ⟨_ | text, records⟩ := listing
  · simp [failure?] at sound
  · cases read : GroupVersion.parse text with
    | error fault => simp [fault?, read] at readable
    | ok gv =>
      cases records with
      | none => simp [failure?, read] at sound
      | some records =>
        refine ⟨text, gv, records, rfl, read, fun r mem nameless => ?_⟩
        have broken : (⟨some text, some records⟩ : Listing).failure? = some .wrongShape :=
          failure?_eq_some_iff.2 (.inr ⟨text, gv, rfl, read, fun records' same => by
            cases same
            exact ⟨r, mem, nameless⟩, rfl⟩)
        rw [sound] at broken
        cases broken

end Listing

namespace Snapshot

/-! ## One listing for both readers -/

/-- An illegible listing stops the strict reader and is left out by the lenient one. -/
theorem assess_of_fault? {listing : Listing} {why : Malformed}
    (illegible : listing.fault? = some why) :
    assess true listing = .refused (.malformed why) ∧ assess false listing = .skipped why := by
  obtain ⟨text, written, unread⟩ := Listing.fault?_eq_some_iff.1 illegible
  simp [assess, written, unread]

/-- A listing that fails does so for both readers. -/
theorem assess_of_failure? {listing : Listing} {why : Failure}
    (fails : listing.failure? = some why) (strict : Bool) : assess strict listing = .refused why := by
  rcases Listing.failure?_eq_some_iff.1 fails with
    ⟨missing, rfl⟩ | ⟨text, gv, written, read, broken, rfl⟩
  · simp [assess, missing]
  · cases held : listing.records with
    | none => simp [assess, written, read, held]
    | some records =>
      simp [assess, written, read, held, Record.named_eq_error (broken records held)]

/-- Any other listing is filed, and alike by both readers. -/
theorem assess_of_sound {listing : Listing} (readable : listing.fault? = none)
    (sound : listing.failure? = none) :
    ∃ text entry orphans, ∀ strict, assess strict listing = .filed text entry orphans := by
  obtain ⟨text, gv, records, rfl, read, named⟩ := Listing.sound_of_none readable sound
  exact ⟨_, _, _, fun strict => assess_eq_filed read named strict⟩

/-! ## A run of each reader -/

/-- The listings that a lenient reader does not leave out. -/
def legible (listings : List Listing) : List Listing := listings.filter (·.fault?.isNone)

/-- The listings before the first that fails. -/
def passed (listings : List Listing) : List Listing := listings.takeWhile (·.failure?.isNone)

/-- A listing stops the strict reader when it is illegible, and either reader when it fails. -/
theorem assess_eq_refused_iff {strict : Bool} {listing : Listing} {why : Failure} :
    assess strict listing = .refused why ↔
      (strict = true ∧ ∃ cause, listing.fault? = some cause ∧ why = .malformed cause) ∨
        listing.failure? = some why := by
  cases fault : listing.fault? with
  | some cause =>
    have other := Listing.failure?_of_fault? fault
    obtain ⟨stops, skips⟩ := assess_of_fault? fault
    cases strict with
    | true => simp [stops, other, eq_comm]
    | false => simp [skips, other]
  | none =>
    cases failure : listing.failure? with
    | some cause => simp [assess_of_failure? failure]
    | none =>
      obtain ⟨text, entry, orphans, filed⟩ := assess_of_sound fault failure
      simp [filed]

theorem passes_assess (listing : Listing) :
    (assess false listing).passes = listing.failure?.isNone := by
  cases failure : listing.failure? with
  | some why =>
    rw [assess_of_failure? failure]
    rfl
  | none =>
    cases assessed : assess false listing with
    | refused why =>
      simp [assess_eq_refused_iff, failure] at assessed
    | skipped why => rfl
    | filed text entry orphans => rfl

/-- Both readers do the same with a listing whose group-version can be read or is null. -/
theorem assess_of_legible {listing : Listing} (readable : listing.fault? = none) :
    assess true listing = assess false listing := by
  cases failure : listing.failure? with
  | some why => rw [assess_of_failure? failure, assess_of_failure? failure]
  | none =>
    obtain ⟨text, entry, orphans, filed⟩ := assess_of_sound readable failure
    rw [filed, filed]

/-- Illegible listings leave no trace in the table. -/
theorem result_indexOnto_legible (listings : List Listing) :
    ∀ entries : Table String Entry, (indexOnto false entries listings).result =
      (indexOnto true entries (legible listings)).result := by
  induction listings with
  | nil => exact fun entries => rfl
  | cons first rest ih =>
    intro entries
    cases fault : first.fault? with
    | some why =>
      have out : legible (first :: rest) = legible rest := by simp [legible, fault]
      rw [out, ← ih]
      simp only [indexOnto, (assess_of_fault? fault).2]
    | none =>
      have kept : legible (first :: rest) = first :: legible rest := by simp [legible, fault]
      rw [kept]
      simp only [indexOnto, assess_of_legible fault]
      cases assess false first with
      | refused why => rfl
      | skipped why => exact ih entries
      | filed text entry orphans => exact ih (entries.put text entry)

/-! ## What each reader remarks -/

/-- Whether a remark says that a listing was left out. -/
def Remark.isSkip : Remark → Bool
  | .skipped _ => true
  | .orphan _ _ => false

/-- Of an illegible listing it is remarked that it was left out, of any other one this is not. -/
theorem filter_remarks_assess (listing : Listing) :
    (assess false listing).remarks.filter Remark.isSkip =
        listing.fault?.toList.map .skipped ∧
      (assess false listing).remarks.filter (!·.isSkip) =
        if listing.fault?.isNone then (assess false listing).remarks else [] := by
  cases fault : listing.fault? with
  | some why =>
    rw [(assess_of_fault? fault).2]
    exact ⟨rfl, rfl⟩
  | none =>
    cases failure : listing.failure? with
    | some why =>
      rw [assess_of_failure? failure]
      exact ⟨rfl, rfl⟩
    | none =>
      obtain ⟨text, entry, orphans, filed⟩ := assess_of_sound fault failure
      rw [filed]
      simp [Assessment.remarks, Remark.isSkip]

theorem filter_flatMap_remarks (listings : List Listing) :
    (listings.flatMap fun l => (assess false l).remarks).filter Remark.isSkip =
        (listings.filterMap Listing.fault?).map .skipped ∧
      (listings.flatMap fun l => (assess false l).remarks).filter (!·.isSkip) =
        (legible listings).flatMap fun l => (assess false l).remarks := by
  induction listings with
  | nil => exact ⟨rfl, rfl⟩
  | cons first rest ih =>
    obtain ⟨skips, others⟩ := filter_remarks_assess first
    simp only [List.flatMap_cons, List.filter_append, skips, others, ih.1, ih.2]
    cases fault : first.fault? with
    | some why => simp [legible, fault]
    | none => simp [legible, fault]

/-- The strict reader stops among the legible listings where the lenient one stops among all. -/
theorem takeWhile_legible (listings : List Listing) :
    ((legible listings).takeWhile fun l => (assess true l).passes) =
      legible (passed listings) := by
  induction listings with
  | nil => rfl
  | cons first rest ih =>
    cases fault : first.fault? with
    | some why =>
      have sound : first.failure? = none := Listing.failure?_of_fault? fault
      have out : legible (first :: rest) = legible rest := by simp [legible, fault]
      have also : legible (passed (first :: rest)) = legible (passed rest) := by
        simp [legible, passed, fault, sound]
      rw [out, also, ih]
    | none =>
      have kept : legible (first :: rest) = first :: legible rest := by simp [legible, fault]
      rw [kept, List.takeWhile_cons, assess_of_legible fault, passes_assess, ih]
      cases failure : first.failure? with
      | some why => simp [legible, passed, failure]
      | none => simp [legible, passed, failure, fault]

theorem remarks_lenient (listings : List Listing) :
    (index false (some listings)).remarks =
      (passed listings).flatMap fun l => (assess false l).remarks := by
  rw [remarks_index_eq_flatMap, passed]
  simp only [passes_assess]

theorem remarks_strict (listings : List Listing) :
    (index true (some (legible listings))).remarks =
      (legible (passed listings)).flatMap fun l => (assess false l).remarks := by
  rw [remarks_index_eq_flatMap, takeWhile_legible]
  refine List.flatMap_congr fun l mem => ?_
  have readable : l.fault? = none := by
    simpa using (List.mem_filter.1 mem).2
  rw [assess_of_legible readable]

/-! ## The two runs compared -/

attribute [ext] Indexed

/-- The log lines of a run. -/
def Indexed.lines (run : Indexed) : List Report.Line := run.remarks.map Remark.line

/-- The event of the warning that a listing was left out. -/
def skipEvent : String := "discovery_group_version_skipped"

theorem event_line_eq (remark : Remark) :
    decide (remark.line.event = skipEvent) = remark.isSkip := by
  cases remark <;> simp [Remark.line, Remark.isSkip, skipEvent]

theorem filter_lines (run : Indexed) :
    run.lines.filter (·.event = skipEvent) =
        (run.remarks.filter Remark.isSkip).map Remark.line ∧
      run.lines.filter (·.event ≠ skipEvent) =
        (run.remarks.filter (!·.isSkip)).map Remark.line := by
  simp only [Indexed.lines, List.filter_map, Function.comp_def, ne_eq, decide_not, event_line_eq,
    and_self]

theorem legible_eq_self {listings : List Listing} (readable : ∀ l ∈ listings, l.fault? = none) :
    legible listings = listings := by
  refine List.filter_eq_self.2 fun l mem => ?_
  rw [readable l mem]
  rfl

/-- A strict run that goes through meets no illegible listing. -/
theorem fault?_of_strict {listings : List Listing} {entries : Table String Entry}
    (indexed : (index true (some listings)).result = .ok entries) :
    ∀ l ∈ listings, l.fault? = none := by
  intro l mem
  cases fault : l.fault? with
  | none => rfl
  | some why =>
    exact absurd (assess_of_fault? fault).1 ((result_index_eq_ok_iff.1 indexed).1 l mem _)

/-- Lenient indexing is strict indexing of the listings that can be read. -/
theorem index_lenient (listings : List Listing) :
    let lenient := index false (some listings)
    let strictly := index true (some (legible listings))
    lenient.result = strictly.result ∧
    -- it stops at the first listing that fails, and never with a breach of the contract
    (∀ why, lenient.result = .error why ↔
      ∃ before first after, listings = before ++ first :: after ∧
        (∀ l ∈ before, l.failure? = none) ∧ first.failure? = some why) ∧
    (∀ why, lenient.result = .error why → why.isBreach = false) ∧
    -- it warns of each listing left out up to there, and otherwise logs what the strict run logs
    lenient.lines.filter (·.event = skipEvent) =
      ((passed listings).filterMap Listing.fault?).map (fun why => (Remark.skipped why).line) ∧
    lenient.lines.filter (·.event ≠ skipEvent) = strictly.lines ∧
    -- where the strict reader goes through all listings, the lenient one does the same
    ∀ entries, (index true (some listings)).result = .ok entries →
      lenient = index true (some listings) := by
  intro lenient strictly
  obtain ⟨skips, others⟩ := filter_flatMap_remarks (passed listings)
  have result : lenient.result = strictly.result := result_indexOnto_legible listings .empty
  have stops (why : Failure) : lenient.result = .error why ↔
      ∃ before first after, listings = before ++ first :: after ∧
        (∀ l ∈ before, l.failure? = none) ∧ first.failure? = some why := by
    simp only [lenient, result_index_eq_error_iff, ne_eq, assess_eq_refused_iff, reduceCtorEq,
      false_and, false_or, Option.eq_none_iff_forall_ne_some]
  refine ⟨result, stops, fun why failed => ?_, ?_, ?_, fun entries indexed => ?_⟩
  · obtain ⟨before, first, after, -, -, fails⟩ := (stops why).1 failed
    rcases Listing.failure?_eq_some_iff.1 fails with ⟨-, rfl⟩ | ⟨text, gv, -, -, -, rfl⟩
    · rfl
    · rfl
  · rw [(filter_lines lenient).1, remarks_lenient, skips, List.map_map]
    rfl
  · rw [(filter_lines lenient).2, remarks_lenient, others, Indexed.lines, remarks_strict]
  · have readable := fault?_of_strict indexed
    have all : legible listings = listings := legible_eq_self readable
    have before : legible (passed listings) = passed listings :=
      legible_eq_self fun l mem => readable l (List.takeWhile_subset _ mem)
    have remarks : lenient.remarks = (index true (some (legible listings))).remarks := by
      rw [remarks_lenient, remarks_strict, before]
    rw [all] at remarks
    simp only [strictly, all] at result
    exact Indexed.ext remarks result

/-- The last of these listings is not reached, and gets no warning. -/
example : index false (some [⟨"apps/v1/beta", none⟩, ⟨none, none⟩, ⟨"", none⟩]) =
    ⟨[.skipped ⟨"apps/v1/beta", .manySlashes⟩], .error .missingField⟩ := by
  rfl

end Snapshot

end ApiCatalog
