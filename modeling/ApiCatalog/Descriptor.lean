/-
# ApiCatalog.Descriptor -- a resolved API resource type

A descriptor is what a lookup answers with: the metadata of a record, the group
and version that it stands in, the group-version text under which it is filed,
and the keys of its subresources.  Its identifiers are read off that text
(`groupVersion`, `groupVersionKind`, `groupVersionResource`), so they exist
exactly when the text can be read; `groupResource` uses the descriptor's own
group and always exists.
-/
import ApiCatalog.GroupVersion.Parser
import ApiCatalog.Identifier
import ApiCatalog.Record
import ApiCatalog.TextSet

namespace ApiCatalog

set_option autoImplicit false

/-- A resolved API resource type. -/
structure Descriptor where
  name : String
  kind : Option String
  group : String
  version : String
  apiVersion : String
  namespaced : Bool := false
  verbs : List String := []
  shortNames : List String := []
  singularName : String := ""
  categories : List String := []
  subresources : TextSet := .empty
deriving DecidableEq, Repr

namespace Descriptor

/-- The kind as identifiers write it; a null kind is written `None`. -/
def kindText (d : Descriptor) : String := d.kind.getD "None"

/-- The group-version that the descriptor is filed under. -/
def groupVersion (d : Descriptor) : Except Malformed GroupVersion := GroupVersion.parse d.apiVersion

/-- The kind within that group-version. -/
def groupVersionKind (d : Descriptor) : Except Malformed GroupVersionKind :=
  d.groupVersion.map (·.withKind d.kindText)

/-- The resource within that group-version. -/
def groupVersionResource (d : Descriptor) : Except Malformed GroupVersionResource :=
  d.groupVersion.map (·.withResource d.name)

/-- The resource within the descriptor's own group. -/
def groupResource (d : Descriptor) : GroupResource := ⟨d.group, d.name⟩

/-- Whether the type has a subresource of this key. -/
def hasSubresource (d : Descriptor) (key : String) : Bool := d.subresources.toList.contains key

/-- The descriptor with one more subresource key. -/
def addSubresource (d : Descriptor) (key : String) : Descriptor :=
  { d with subresources := d.subresources.insert key }

theorem hasSubresource_iff (d : Descriptor) (key : String) :
    d.hasSubresource key = true ↔ key ∈ d.subresources := by
  simp [hasSubresource, TextSet.mem_def]

end Descriptor

/-- The first of two texts unless it is blank. -/
def orElseText (own inherited : String) : String := if own = "" then inherited else own

/-- A record resolved within its listing: a blank group or version is the listing's. -/
def Record.resolve (r : Record) (name : String) (gv : GroupVersion) (apiVersion : String) :
    Descriptor where
  name := name
  kind := r.kind
  group := orElseText r.group gv.group
  version := orElseText r.version gv.version
  apiVersion := apiVersion
  namespaced := r.namespaced
  verbs := r.verbs
  shortNames := r.shortNames
  singularName := r.singularName
  categories := r.categories

end ApiCatalog
