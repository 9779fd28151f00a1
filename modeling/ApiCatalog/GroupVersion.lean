/-
# ApiCatalog.GroupVersion -- a version of an API group

The core group has the empty name and is written as its version alone (`v1`);
any other group is written before its version with a slash between them
(`apps/v1`).
-/

namespace ApiCatalog

set_option autoImplicit false

/-- A version of an API group; the core group is the empty text. -/
structure GroupVersion where
  group : String
  version : String
deriving DecidableEq, Repr

namespace GroupVersion

/-- The written form: the version alone for the core group, else `group/version`. -/
def render (gv : GroupVersion) : String :=
  if gv.group = "" then gv.version else gv.group ++ "/" ++ gv.version

theorem render_core (version : String) : render ⟨"", version⟩ = version := by
  simp [render]

theorem render_named {group : String} (version : String) (named : group ≠ "") :
    render ⟨group, version⟩ = group ++ "/" ++ version := by
  simp [render, named]

end GroupVersion

end ApiCatalog
