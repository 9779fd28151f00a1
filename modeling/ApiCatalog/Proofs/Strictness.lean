/-
# ApiCatalog.Proofs.Strictness -- strict indexing stops at the first unsound listing

A listing is *sound* when its group-version can be read and its records are there,
all of them with names (`Listing.sound_iff`).  A strict reader goes through exactly
when all listings are sound, and then has an entry for each of their
group-versions.  Otherwise it stops at the first that is not (`FirstUnsound`), and
the group-version of that listing alone says how:

* a text that cannot be read breaks the contract, whatever the records are;
* a null group-version is a missing field, whatever the records are;
* under a group-version that can be read, it is the records that are null, or have
  a null name.

So the three failures exclude each other, and no listing after the first unsound
one has a say (`index_strict`).
-/
import ApiCatalog.Proofs.Grammar
import ApiCatalog.Proofs.Leniency

namespace ApiCatalog

set_option autoImplicit false

namespace Listing

/-- The group-version of a listing can be read. -/
def Readable (listing : Listing) : Prop :=
  ∃ text gv, listing.groupVersion = some text ∧ GroupVersion.parse text = .ok gv

/-- Every record of a listing has a name. -/
def Named (listing : Listing) : Prop :=
  ∀ records, listing.records = some records → ∀ r ∈ records, r.name ≠ none

theorem sound_iff {listing : Listing} :
    listing.Sound ↔ listing.Readable ∧ listing.records ≠ none ∧ listing.Named := by
  constructor
  · rintro ⟨text, gv, records, rfl, read, named⟩
    refine ⟨⟨text, gv, rfl, read⟩, Option.some_ne_none records, fun records' same => ?_⟩
    cases same
    exact named
  · obtain ⟨groupVersion, held⟩ := listing
    rintro ⟨⟨text, gv, written, read⟩, there, named⟩
    obtain ⟨records, rfl⟩ := Option.ne_none_iff_exists'.1 there
    obtain rfl : groupVersion = some text := written
    exact ⟨text, gv, records, rfl, read, named records rfl⟩

end Listing

namespace Snapshot

/-! ## One listing -/

/-- A strict reader passes exactly the sound listings. -/
theorem unrefused_iff_sound {listing : Listing} :
    (∀ why, assess true listing ≠ .refused why) ↔ listing.Sound := by
  constructor
  · intro passes
    refine Listing.sound_of_none ?_ ?_
    · refine Option.eq_none_iff_forall_ne_some.2 fun cause illegible => ?_
      exact passes _ (assess_of_fault? illegible).1
    · refine Option.eq_none_iff_forall_ne_some.2 fun why fails => ?_
      exact passes why (assess_of_failure? fails true)
  · exact fun sound => sound.unrefused true

theorem assess_eq_malformed_iff {listing : Listing} {cause : Malformed} :
    assess true listing = .refused (.malformed cause) ↔
      listing.groupVersion = some cause.text ∧ GroupVersion.FirstFault cause.text cause.fault := by
  have other : listing.failure? ≠ some (.malformed cause) := by
    simp [Listing.failure?_eq_some_iff]
  simp only [assess_eq_refused_iff, other, Failure.malformed.injEq, exists_eq_right', true_and,
    or_false, Listing.fault?_eq_some_iff, GroupVersion.parse_eq_error_iff]
  constructor
  · rintro ⟨text, written, rfl, first⟩
    exact ⟨written, first⟩
  · rintro ⟨written, first⟩
    exact ⟨cause.text, written, rfl, first⟩

theorem assess_eq_missingField_iff {listing : Listing} :
    assess true listing = .refused .missingField ↔ listing.groupVersion = none := by
  simp [assess_eq_refused_iff, Listing.failure?_eq_some_iff]

/-- Under a group-version that can be read, the records are at fault. -/
theorem assess_eq_wrongShape_iff {listing : Listing} :
    assess true listing = .refused .wrongShape ↔ listing.Readable ∧ ¬ listing.Sound := by
  constructor
  · intro refused
    refine ⟨?_, fun also => also.unrefused true _ refused⟩
    rcases assess_eq_refused_iff.1 refused with ⟨-, cause, -, same⟩ | fails
    · cases same
    · rcases Listing.failure?_eq_some_iff.1 fails with ⟨-, same⟩ | ⟨text, gv, written, read, -⟩
      · cases same
      · exact ⟨text, gv, written, read⟩
  · rintro ⟨⟨text, gv, written, read⟩, unsound⟩
    have readable : listing.fault? = none := by simp [Listing.fault?, written, read]
    obtain ⟨why, fails⟩ : ∃ why, listing.failure? = some why :=
      Option.ne_none_iff_exists'.1 fun sound => unsound (Listing.sound_of_none readable sound)
    rcases Listing.failure?_eq_some_iff.1 fails with ⟨missing, -⟩ | ⟨-, -, -, -, -, rfl⟩
    · rw [written] at missing
      cases missing
    · exact assess_of_failure? fails true

/-! ## A strict run -/

/-- The first listing that is not sound. -/
def FirstUnsound (listings : List Listing) (bad : Listing) : Prop :=
  ∃ before after, listings = before ++ bad :: after ∧ (∀ l ∈ before, l.Sound) ∧ ¬ bad.Sound

/-- A strict run fails as its first unsound listing does. -/
theorem result_strict_eq_error_iff {listings : List Listing} {why : Failure} :
    (index true (some listings)).result = .error why ↔
      ∃ bad, FirstUnsound listings bad ∧ assess true bad = .refused why := by
  simp only [result_index_eq_error_iff, unrefused_iff_sound]
  constructor
  · rintro ⟨before, bad, after, split, sound, refused⟩
    exact ⟨bad, ⟨before, after, split, sound, fun also => also.unrefused true why refused⟩, refused⟩
  · rintro ⟨bad, ⟨before, after, split, sound, -⟩, refused⟩
    exact ⟨before, bad, after, split, sound, refused⟩

/-- A strict run goes through when all listings are sound. -/
theorem result_strict_eq_ok_iff {listings : List Listing} :
    (∃ entries, (index true (some listings)).result = .ok entries) ↔ ∀ l ∈ listings, l.Sound := by
  simp only [result_index_eq_ok_iff, exists_and_left, exists_eq, and_true, unrefused_iff_sound]

/-- A strict run that goes through has an entry for each group-version, and no other. -/
theorem mem_keys_strict {listings : List Listing} {entries : Table String Entry}
    (indexed : (index true (some listings)).result = .ok entries) {text : String} :
    text ∈ entries.keys ↔ ∃ l ∈ listings, l.groupVersion = some text := by
  have sound := result_strict_eq_ok_iff.1 ⟨entries, indexed⟩
  obtain ⟨-, rfl⟩ := result_index_eq_ok_iff.1 indexed
  rw [mem_keys_filings sound, List.mem_map]

/-- What breaks the contract is a group-version that cannot be read. -/
theorem eq_malformed_of_isBreach {strict : Bool} {listings : Option (List Listing)} {why : Failure}
    (failed : (index strict listings).result = .error why) (breach : why.isBreach = true) :
    ∃ cause, why = .malformed cause := by
  rcases refusal_of_index failed with malformed | rfl | rfl
  · exact malformed
  · cases breach
  · cases breach

/-- A strict run stops at the first unsound listing, for what is wrong with that one, and else has
an entry for every group-version. -/
theorem index_strict (listings : List Listing) :
    let result := (index true (some listings)).result
    -- it breaks the contract where the group-version cannot be read, and names its first fault
    ((∃ why, result = .error why ∧ why.isBreach = true) ↔
      ∃ before bad after text, listings = before ++ bad :: after ∧ (∀ l ∈ before, l.Sound) ∧
        bad.groupVersion = some text ∧ ∀ gv, GroupVersion.parse text ≠ .ok gv) ∧
    (∀ why, result = .error why → why.isBreach = true →
      ∃ bad cause, FirstUnsound listings bad ∧ why = .malformed cause ∧
        bad.groupVersion = some cause.text ∧ GroupVersion.FirstFault cause.text cause.fault ∧
        why.message = "discovery returned an invalid group/version: " ++ cause.message) ∧
    -- it misses a field where the group-version is null, and else lacks records
    (result = .error .missingField ↔
      ∃ bad, FirstUnsound listings bad ∧ bad.groupVersion = none) ∧
    (result = .error .wrongShape ↔
      ∃ bad, FirstUnsound listings bad ∧ bad.Readable ∧ (bad.records = none ∨ ¬ bad.Named)) ∧
    ((∀ l ∈ listings, l.Named) → (result = .error .wrongShape ↔
      ∃ bad, FirstUnsound listings bad ∧ bad.Readable ∧ bad.records = none)) ∧
    -- it goes through where every listing is sound
    ((∃ entries, result = .ok entries) ↔ ∀ l ∈ listings, l.Sound) ∧
    ∀ entries, result = .ok entries →
      ∀ text, text ∈ entries.keys ↔ ∃ l ∈ listings, l.groupVersion = some text := by
  intro result
  have lacking : result = .error .wrongShape ↔
      ∃ bad, FirstUnsound listings bad ∧ bad.Readable ∧ (bad.records = none ∨ ¬ bad.Named) := by
    simp only [result, result_strict_eq_error_iff, assess_eq_wrongShape_iff]
    refine exists_congr fun bad => and_congr_right fun _ => and_congr_right fun readable => ?_
    rw [Listing.sound_iff, and_iff_right readable, not_and_or, not_not]
  refine ⟨⟨?_, ?_⟩, fun why failed breach => ?_, ?_, lacking, fun named => ?_,
    result_strict_eq_ok_iff, fun entries indexed text => mem_keys_strict indexed⟩
  · rintro ⟨why, failed, breach⟩
    obtain ⟨cause, rfl⟩ := eq_malformed_of_isBreach failed breach
    obtain ⟨bad, ⟨before, after, split, sound, -⟩, refused⟩ := result_strict_eq_error_iff.1 failed
    obtain ⟨written, first⟩ := assess_eq_malformed_iff.1 refused
    have unread : GroupVersion.parse cause.text = .error cause :=
      GroupVersion.parse_eq_error_iff.2 ⟨rfl, first⟩
    exact ⟨before, bad, after, cause.text, split, sound, written, by simp [unread]⟩
  · rintro ⟨before, bad, after, text, split, sound, written, unread⟩
    cases read : GroupVersion.parse text with
    | ok gv => exact absurd read (unread gv)
    | error cause =>
      obtain ⟨rfl, first⟩ := GroupVersion.parse_eq_error_iff.1 read
      have refused := assess_eq_malformed_iff.2 ⟨written, first⟩
      have unsound : ¬ bad.Sound := fun also => also.unrefused true _ refused
      exact ⟨.malformed cause, result_strict_eq_error_iff.2
        ⟨bad, ⟨before, after, split, sound, unsound⟩, refused⟩, rfl⟩
  · obtain ⟨cause, rfl⟩ := eq_malformed_of_isBreach failed breach
    obtain ⟨bad, first, refused⟩ := result_strict_eq_error_iff.1 failed
    obtain ⟨written, fault⟩ := assess_eq_malformed_iff.1 refused
    exact ⟨bad, cause, first, rfl, written, fault, rfl⟩
  · simp only [result, result_strict_eq_error_iff, assess_eq_missingField_iff]
  · rw [lacking]
    refine exists_congr fun bad => and_congr_right fun first => and_congr_right fun _ => ?_
    obtain ⟨before, after, split, -⟩ := first
    exact or_iff_left (not_not_intro (named bad (by simp [split])))

/-- Of three bad listings the first decides, and that its records are null does not count. -/
theorem index_strict_beta :
    let listings : List Listing :=
      [⟨"v1", some []⟩, ⟨"apps/v1/beta", none⟩, ⟨none, some []⟩, ⟨"apps/v1", none⟩]
    ∃ why bad cause, (index true (some listings)).result = .error why ∧ why.isBreach = true ∧
      FirstUnsound listings bad ∧ why = .malformed cause ∧ bad.groupVersion = some cause.text ∧
      cause = ⟨"apps/v1/beta", .manySlashes⟩ := by
  intro listings
  have failed : (index true (some listings)).result =
      .error (.malformed ⟨"apps/v1/beta", .manySlashes⟩) := rfl
  obtain ⟨bad, cause, first, same, written, -⟩ := (index_strict listings).2.1 _ failed rfl
  cases same
  exact ⟨_, bad, _, failed, rfl, first, rfl, written, rfl⟩

end Snapshot

end ApiCatalog
