/-
# ApiCatalog.Identifier -- names for API types

A kind is named within a group-version (`apps/v1, Kind=Deployment`), a resource
within a group-version (`apps/v1, Resource=deployments`) or, without the
version, within a group (`deployments.apps`).  `Identifier` gathers the four
sorts, so that a list may mix them; identifiers of different sorts are never
equal.
-/
import ApiCatalog.GroupVersion

namespace ApiCatalog

set_option autoImplicit false

/-- A kind within a group-version. -/
structure GroupVersionKind where
  group : String
  version : String
  kind : String
deriving DecidableEq, Repr

/-- A resource within a group-version. -/
structure GroupVersionResource where
  group : String
  version : String
  resource : String
deriving DecidableEq, Repr

/-- A resource within a group, whatever the version. -/
structure GroupResource where
  group : String
  resource : String
deriving DecidableEq, Repr

namespace GroupVersion

/-- A kind of this group-version. -/
def withKind (gv : GroupVersion) (kind : String) : GroupVersionKind :=
  ⟨gv.group, gv.version, kind⟩

/-- A resource of this group-version. -/
def withResource (gv : GroupVersion) (resource : String) : GroupVersionResource :=
  ⟨gv.group, gv.version, resource⟩

end GroupVersion

namespace GroupVersionKind

/-- The group-version that the kind belongs to. -/
def groupVersion (gvk : GroupVersionKind) : GroupVersion := ⟨gvk.group, gvk.version⟩

/-- The written form, `group/version, Kind=kind`. -/
def render (gvk : GroupVersionKind) : String := gvk.groupVersion.render ++ ", Kind=" ++ gvk.kind

@[simp] theorem groupVersion_withKind (gv : GroupVersion) (kind : String) :
    (gv.withKind kind).groupVersion = gv := rfl

end GroupVersionKind

namespace GroupVersionResource

/-- The group-version that the resource belongs to. -/
def groupVersion (gvr : GroupVersionResource) : GroupVersion := ⟨gvr.group, gvr.version⟩

/-- The resource without its version. -/
def groupResource (gvr : GroupVersionResource) : GroupResource := ⟨gvr.group, gvr.resource⟩

/-- The written form, `group/version, Resource=resource`. -/
def render (gvr : GroupVersionResource) : String :=
  gvr.groupVersion.render ++ ", Resource=" ++ gvr.resource

@[simp] theorem groupVersion_withResource (gv : GroupVersion) (resource : String) :
    (gv.withResource resource).groupVersion = gv := rfl

end GroupVersionResource

/-- The written form: the resource alone for the core group, else `resource.group`. -/
def GroupResource.render (gr : GroupResource) : String :=
  if gr.group = "" then gr.resource else gr.resource ++ "." ++ gr.group

/-- An identifier of any of the four sorts. -/
inductive Identifier where
  | groupVersion (gv : GroupVersion)
  | groupVersionKind (gvk : GroupVersionKind)
  | groupVersionResource (gvr : GroupVersionResource)
  | groupResource (gr : GroupResource)
deriving DecidableEq, Repr

namespace Identifier

/-- For each identifier, the position of the first one equal to it. -/
def firstPositions (ids : List Identifier) : List Nat := ids.map fun i => ids.idxOf i

/-- How many different identifiers a list holds. -/
def distinctCount (ids : List Identifier) : Nat := ids.eraseDups.length

end Identifier

end ApiCatalog
