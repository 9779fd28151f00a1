/-
# ApiCatalog.Cluster -- what a cluster replies

A cluster has a reply to each request: the versions of its core group, its other
groups with their versions, and the resources of one group-version.  Replies are
values as they were served: a list may be null, and an item may lack a field.
`ResourceList.listing` turns a reply into a `Listing`: null fields become blank,
and an item without a name or a kind refuses the reply.
-/
import ApiCatalog.Source

namespace ApiCatalog

set_option autoImplicit false

/-- A field of a served value. -/
inductive Field (α : Type) where
  | absent
  | null
  | given (value : α)
deriving DecidableEq, Repr

/-- The value of a field that must be there; it may be null. -/
def Field.read {α : Type} : Field α → Except Failure (Option α)
  | .absent => .error .missingField
  | .null => .ok none
  | .given value => .ok (some value)

/-- A resource as a cluster serves it. -/
structure Item where
  name : Field String
  kind : Field String
  group : Option String
  version : Option String
  namespaced : Option Bool
  verbs : Option (List String)
  shortNames : Option (List String)
  singularName : Option String
  categories : Option (List String)

/-- The reply to a request for the resources of a group-version. -/
structure ResourceList where
  groupVersion : Option String
  items : Option (List Item)

/-- The replies of a cluster. -/
structure Cluster (τ : Type) where
  coreVersions : Reply τ (Option (List String))
  /-- The versions of each group, as group-version texts. -/
  groups : Reply τ (Option (List (Option (List String))))
  /-- The replies for the resources of group-versions; those for one group-version stand in the
  order of its requests, and the last of them repeats. -/
  resources : List (String × Reply τ ResourceList)

/-- The record of a served item. -/
def Item.record (item : Item) : Except Failure Record := do
  let name ← item.name.read
  let kind ← item.kind.read
  return {
    name
    kind
    group := item.group.getD ""
    version := item.version.getD ""
    namespaced := item.namespaced.getD false
    verbs := item.verbs.getD []
    shortNames := item.shortNames.getD []
    singularName := item.singularName.getD ""
    categories := item.categories.getD [] }

/-- The records of served items, or the failure of the first that has none. -/
def Item.records : List Item → Except Failure (List Record)
  | [] => .ok []
  | item :: rest => do
    let record ← item.record
    return record :: (← Item.records rest)

namespace ResourceList

/-- The group-version that a reply names, or else the one that was asked for. -/
def nameOr (reply : ResourceList) (asked : String) : String :=
  match reply.groupVersion with
  | some named => if named = "" then asked else named
  | none => asked

/-- The listing of a reply. -/
def listing (reply : ResourceList) (asked : String) : Except Failure Listing :=
  (Item.records (reply.items.getD [])).map fun records =>
    ⟨some (reply.nameOr asked), some records⟩

end ResourceList

namespace Cluster

variable {τ : Type}

/-- The replies for the resources of a group-version, in order. -/
def repliesOf (cluster : Cluster τ) (groupVersion : String) : List (Reply τ ResourceList) :=
  cluster.resources.filterMap fun reply => if reply.1 = groupVersion then some reply.2 else none

/-- The reply to a request for the resources of a group-version, given how many there were before
it; without any reply the request fails. -/
def resourcesOf (cluster : Cluster τ) (groupVersion : String) (earlier : Nat) :
    Reply τ ResourceList :=
  match cluster.repliesOf groupVersion with
  | first :: rest => Script.at ⟨first, rest⟩ earlier
  | [] => ⟨none, .error (.raised .runtime ("no reply for " ++ groupVersion))⟩

/-- The group-versions of served groups, in order. -/
def versionsOf (groups : Option (List (Option (List String)))) : List String :=
  (groups.getD []).flatMap (·.getD [])

end Cluster

end ApiCatalog
