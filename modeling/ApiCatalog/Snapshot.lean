/-
# ApiCatalog.Snapshot -- the index of one enumeration

A snapshot files an `Entry` under the group-version text of every listing.  A
later listing under the same text replaces the whole entry.

`Snapshot.index` goes through the listings in order and stops at the first that
it must refuse.  What it has to remark on the way is kept also when it stops.  A
listing is refused when its group-version is null, when the group-version can be
read but its records are null or hold a null name, and, by a strict reader, when
the group-version cannot be read; a lenient reader leaves that listing out.
-/
import ApiCatalog.Snapshot.Entry

namespace ApiCatalog

set_option autoImplicit false

universe u

/-- The index of one enumeration. -/
structure Snapshot (τ : Type u) where
  groupVersions : Table String Entry
  /-- When the fetch of this enumeration started. -/
  fetchedAt : τ

namespace Snapshot

/-- What indexing remarks on its way. -/
inductive Remark where
  /-- A listing was left out because its group-version cannot be read. -/
  | skipped (why : Malformed)
  /-- A subresource path names a resource that is not there. -/
  | orphan (groupVersion path : String)
deriving DecidableEq, Repr

/-- What an indexing run remarked, and what came of it. -/
structure Indexed where
  remarks : List Remark
  result : Except Failure (Table String Entry)

/-- What becomes of one listing. -/
inductive Assessment where
  /-- The whole run stops. -/
  | refused (why : Failure)
  /-- The listing is left out. -/
  | skipped (why : Malformed)
  /-- The listing is filed under its group-version. -/
  | filed (groupVersion : String) (entry : Entry) (orphans : List String)

/-- Index one listing by itself. -/
def assess (strict : Bool) (listing : Listing) : Assessment :=
  match listing.groupVersion with
  | none => .refused .missingField
  | some text =>
    match GroupVersion.parse text with
    | .error why => if strict then .refused (.malformed why) else .skipped why
    | .ok gv =>
      match listing.records with
      | none => .refused .wrongShape
      | some records =>
        match Record.named records with
        | .error why => .refused why
        | .ok named =>
          let resolved := Entry.resolve gv text named
          .filed text (Entry.ofResolved resolved) (Entry.orphans resolved)

/-- Index listings on top of the entries that are there already. -/
def indexOnto (strict : Bool) (entries : Table String Entry) : List Listing → Indexed
  | [] => ⟨[], .ok entries⟩
  | listing :: rest =>
    match assess strict listing with
    | .refused why => ⟨[], .error why⟩
    | .skipped why =>
      let later := indexOnto strict entries rest
      ⟨.skipped why :: later.remarks, later.result⟩
    | .filed text entry orphans =>
      let later := indexOnto strict (entries.put text entry) rest
      ⟨orphans.map (.orphan text) ++ later.remarks, later.result⟩

/-- Index an enumeration; a null one has not the shape of a list. -/
def index (strict : Bool) : Option (List Listing) → Indexed
  | none => ⟨[], .error .wrongShape⟩
  | some listings => indexOnto strict .empty listings

variable {τ : Type u}

/-- The resource type of a name within a group-version. -/
def get? (s : Snapshot τ) (apiVersion resource : String) : Option Descriptor :=
  (s.groupVersions.get? apiVersion).bind (·.resources.get? resource)

/-- The resource type of a kind within a group-version. -/
def getByKind? (s : Snapshot τ) (apiVersion kind : String) : Option Descriptor :=
  (s.groupVersions.get? apiVersion).bind (·.kinds.get? (some kind))

/-- The number of resource types, subresources not counted. -/
def resourceCount (s : Snapshot τ) : Nat :=
  s.groupVersions.values.foldl (fun n entry => n + entry.resources.size) 0

/-- Whether two tables of entries agree as mappings. -/
def sameEntries (a b : Table String Entry) : Bool :=
  a.size = b.size && a.entries.all fun pair =>
    match b.get? pair.1 with
    | some entry => pair.2.same entry
    | none => false

end Snapshot

/-- Whether a found resource type has a subresource; one that was not found has none. -/
def hasSubresource (found : Option Descriptor) (key : String) : Bool :=
  match found with
  | some d => d.hasSubresource key
  | none => false

end ApiCatalog
