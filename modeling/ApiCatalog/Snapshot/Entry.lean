/-
# ApiCatalog.Snapshot.Entry -- the index of one group-version

An entry files the descriptors of one group-version under resource names, under
kinds and under subresource paths.  It is built in three passes over the named
records of a listing:

* records without a slash go under their names, records with one under their
  paths; of records with one name the last gives the descriptor and the first
  the rank;
* every path adds what follows its first slash to the subresources of the
  resource before it; a path whose resource is not there is an orphan;
* the kinds are taken from the finished resources, the later name winning.
-/
import ApiCatalog.Descriptor
import ApiCatalog.Failure
import ApiCatalog.Table

namespace ApiCatalog

set_option autoImplicit false

/-- The resource types of one group-version. -/
structure Entry where
  resources : Table String Descriptor
  kinds : Table (Option String) Descriptor
  subresources : Table String Descriptor

/-- Whether a name is a subresource path. -/
def isPath (name : String) : Bool := (Text.cut? '/' name).isSome

/-- Records with their names.  A null name has not the shape of a text. -/
def Record.named : List Record → Except Failure (List (String × Record))
  | [] => .ok []
  | r :: rest =>
    match r.name with
    | none => .error .wrongShape
    | some name => (Record.named rest).map ((name, r) :: ·)

namespace Entry

/-- Give a subresource to its owner, if the owner is there. -/
def adopt (resources : Table String Descriptor) (path : String) : Table String Descriptor :=
  match Text.cut? '/' path with
  | none => resources
  | some (owner, key) => resources.modify owner (·.addSubresource key)

/-- Whether the resource before the first slash of a path is missing. -/
def isOrphan (resources : Table String Descriptor) (path : String) : Bool :=
  match Text.cut? '/' path with
  | none => false
  | some (owner, _) => !resources.contains owner

/-- The kinds of the resources, each with its last descriptor. -/
def kindsOf (resources : Table String Descriptor) : Table (Option String) Descriptor :=
  Table.ofList (resources.values.map fun d => (d.kind, d))

/-- The descriptors under names without a slash, before they get their subresources. -/
def topLevel (resolved : List (String × Descriptor)) : Table String Descriptor :=
  Table.ofList (resolved.filter fun pair => !isPath pair.1)

/-- The descriptors under subresource paths. -/
def nested (resolved : List (String × Descriptor)) : Table String Descriptor :=
  Table.ofList (resolved.filter fun pair => isPath pair.1)

/-- The entry of a list of resolved records. -/
def ofResolved (resolved : List (String × Descriptor)) : Entry :=
  let subresources := nested resolved
  let resources := subresources.keys.foldl adopt (topLevel resolved)
  { resources, kinds := kindsOf resources, subresources }

/-- The subresource paths without an owner, once each. -/
def orphans (resolved : List (String × Descriptor)) : List String :=
  (nested resolved).keys.filter (isOrphan (topLevel resolved))

/-- Resolve named records within a listing. -/
def resolve (gv : GroupVersion) (apiVersion : String) (named : List (String × Record)) :
    List (String × Descriptor) :=
  named.map fun pair => (pair.1, pair.2.resolve pair.1 gv apiVersion)

/-- Whether two entries agree as mappings, index by index. -/
def same (a b : Entry) : Bool :=
  a.resources.sameMapping b.resources && a.kinds.sameMapping b.kinds &&
    a.subresources.sameMapping b.subresources

end Entry

end ApiCatalog
