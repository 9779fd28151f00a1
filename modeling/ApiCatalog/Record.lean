/-
# ApiCatalog.Record -- what a discovery source enumerates

A source enumerates one `Listing` for each group-version, with a `Record` for
each resource type in it.  A record whose name holds a slash is a subresource
(`deployments/status`).  Group and version of a record are mostly blank and then
those of its listing.

A served value may be null where a text or list is due; `none` stands for it.
-/

namespace ApiCatalog

set_option autoImplicit false

/-- One resource type as a source enumerates it. -/
structure Record where
  name : Option String
  kind : Option String
  group : String := ""
  version : String := ""
  namespaced : Bool := false
  verbs : List String := []
  shortNames : List String := []
  singularName : String := ""
  categories : List String := []
deriving DecidableEq, Repr

/-- The resource types of one group-version. -/
structure Listing where
  groupVersion : Option String
  records : Option (List Record)
deriving DecidableEq, Repr

end ApiCatalog
