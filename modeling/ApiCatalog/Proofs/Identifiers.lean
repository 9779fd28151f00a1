/-
# ApiCatalog.Proofs.Identifiers -- a rendered identifier stands for itself alone

Two identifiers of one sort are rendered alike exactly when they are equal, where their
parts leave the separators to the rendering (`render_unambiguous`).

* A group-version is found again at its slash, or is of the core group if there is none.
* A resource within a group is found again at the first dot: the dots of the group come
  after it, and the resource holds none.
* A kind or a resource within a group-version is found again behind the last `, Kind=` or
  `, Resource=`.  Group and version may hold that marker too, so it may stand in the text
  several times.  The last time is well defined because a marker has no comma but the one
  that it begins with, so that no two of them overlap (`eq_nil_of_marker`).

The last name may not hold the marker of its sort: `v1, Kind=Pod, Kind=Pod` is a kind `Pod`
of one version and a kind `Pod, Kind=Pod` of another.
-/
import ApiCatalog.Identifier
import ApiCatalog.Proofs.Grammar

namespace ApiCatalog

set_option autoImplicit false

/-! ## The last marker of a text -/

section Markers

variable {α : Type} {mark : α} {rest front back front' back' gap : List α}

/-- A text that begins with a marker, and holds none behind that one, holds no other at all: a marker
that has its first character only once does not overlap another. -/
theorem eq_nil_of_marker (once : mark ∉ rest) (clear : ¬ mark :: rest <:+: back)
    (same : mark :: rest ++ back = gap ++ (mark :: rest ++ back')) : gap = [] := by
  rcases List.append_eq_append_iff.1 same with ⟨between, -, behind⟩ | ⟨shared, marker, overlap⟩
  · exact absurd ⟨between, back', by rw [behind, List.append_assoc]⟩ clear
  · cases gap with
    | nil => rfl
    | cons first gap =>
      obtain ⟨rfl, tail⟩ := List.cons_eq_cons.1 marker
      cases shared with
      | nil => exact absurd ⟨[], back', by rw [List.nil_append]; exact overlap⟩ clear
      | cons c shared =>
        obtain ⟨rfl, -⟩ := List.cons_eq_cons.1 overlap
        exact absurd (by simp [tail]) once

/-- There is one way to write a text around a marker with none behind it. -/
theorem marked_inj (once : mark ∉ rest) (clear : ¬ mark :: rest <:+: back)
    (clear' : ¬ mark :: rest <:+: back') :
    front ++ (mark :: rest ++ back) = front' ++ (mark :: rest ++ back') ↔
      front = front' ∧ back = back' := by
  constructor
  · intro same
    rcases List.append_eq_append_iff.1 same with ⟨gap, longer, behind⟩ | ⟨gap, longer, behind⟩
    · obtain rfl := eq_nil_of_marker once clear behind
      exact ⟨by simpa using longer.symm, List.append_cancel_left behind⟩
    · obtain rfl := eq_nil_of_marker once clear' behind
      exact ⟨by simpa using longer, (List.append_cancel_left behind).symm⟩
  · rintro ⟨rfl, rfl⟩
    rfl

end Markers

/-- A text holds another one as a part. -/
def Text.Holds (s part : String) : Prop := part.toList <:+: s.toList

instance (s part : String) : Decidable (Text.Holds s part) := inferInstanceAs (Decidable (_ <:+: _))

/-! ## The sorts of identifiers -/

/-- Neither the group nor the version holds a slash. -/
def GroupVersion.Slashless (gv : GroupVersion) : Prop :=
  '/' ∉ gv.group.toList ∧ '/' ∉ gv.version.toList

instance (gv : GroupVersion) : Decidable gv.Slashless := inferInstanceAs (Decidable (_ ∧ _))

/-- A group-version is what its rendered text is split into. -/
theorem GroupVersion.render_inj {a b : GroupVersion} (ha : a.Slashless) (hb : b.Slashless) :
    a.render = b.render ↔ a = b := by
  refine ⟨fun same => ?_, congrArg render⟩
  calc a = split a.render := ((split_render_iff ha.2).2 ha.1).symm
    _ = split b.render := by rw [same]
    _ = b := (split_render_iff hb.2).2 hb.1

/-- Behind a marker that it does not hold itself a name is found again, and so is the group-version
before the marker. -/
theorem GroupVersion.render_marked_inj {a b : GroupVersion} {marker name name' : String}
    {mark : Char} {rest : List Char} (spelt : marker.toList = mark :: rest) (once : mark ∉ rest)
    (ha : a.Slashless) (hb : b.Slashless) (clear : ¬ Text.Holds name marker)
    (clear' : ¬ Text.Holds name' marker) :
    a.render ++ marker ++ name = b.render ++ marker ++ name' ↔ a = b ∧ name = name' := by
  rw [Text.Holds, spelt] at clear clear'
  rw [← render_inj ha hb, ← String.toList_inj, ← String.toList_inj, ← @String.toList_inj name]
  simp only [String.toList_append, List.append_assoc, spelt]
  exact marked_inj once clear clear'

/-- A resource within a group is cut off at the first dot. -/
theorem GroupResource.cut?_render {gr : GroupResource} (clear : '.' ∉ gr.resource.toList) :
    Text.cut? '.' gr.render = if gr.group = "" then none else some (gr.resource, gr.group) := by
  by_cases core : gr.group = ""
  · rw [render, if_pos core, if_pos core]
    exact Text.cut?_eq_none_iff.2 clear
  · rw [render, if_neg core, if_neg core]
    exact Text.cut?_eq_some_iff.2 ⟨by simp, clear⟩

theorem GroupResource.render_inj {a b : GroupResource} (ha : '.' ∉ a.resource.toList)
    (hb : '.' ∉ b.resource.toList) : a.render = b.render ↔ a = b := by
  refine ⟨fun same => ?_, congrArg render⟩
  have cuts := congrArg (Text.cut? '.') same
  rw [cut?_render ha, cut?_render hb] at cuts
  obtain ⟨group, resource⟩ := a
  obtain ⟨group', resource'⟩ := b
  by_cases core : group = "" <;> by_cases core' : group' = ""
  · simpa [render, core, core'] using same
  · simp [core, core'] at cuts
  · simp [core, core'] at cuts
  · simpa [core, core', and_comm] using cuts

namespace Identifier

/-- Identifiers are rendered alike only if they are equal.  The parts of a group-version may not hold a
slash, the name of a kind or a resource not the marker before it, and a resource without its version
no dot; nothing else is asked of them, and of the group of such a resource nothing at all. -/
theorem render_unambiguous :
    (∀ a b : GroupVersion, a.Slashless → b.Slashless → (a.render = b.render ↔ a = b)) ∧
    (∀ a b : GroupVersionKind, a.groupVersion.Slashless → b.groupVersion.Slashless →
      ¬ Text.Holds a.kind ", Kind=" → ¬ Text.Holds b.kind ", Kind=" →
        (a.render = b.render ↔ a = b)) ∧
    (∀ a b : GroupVersionResource, a.groupVersion.Slashless → b.groupVersion.Slashless →
      ¬ Text.Holds a.resource ", Resource=" → ¬ Text.Holds b.resource ", Resource=" →
        (a.render = b.render ↔ a = b)) ∧
    ∀ a b : GroupResource, '.' ∉ a.resource.toList → '.' ∉ b.resource.toList →
      (a.render = b.render ↔ a = b) := by
  refine ⟨fun a b => GroupVersion.render_inj, fun a b ha hb clear clear' => ?_,
    fun a b ha hb clear clear' => ?_, fun a b => GroupResource.render_inj⟩
  · have parts : a = b ↔ a.groupVersion = b.groupVersion ∧ a.kind = b.kind := by
      cases a
      cases b
      simp [GroupVersionKind.groupVersion, and_assoc]
    rw [parts]
    exact GroupVersion.render_marked_inj rfl (by decide) ha hb clear clear'
  · have parts : a = b ↔ a.groupVersion = b.groupVersion ∧ a.resource = b.resource := by
      cases a
      cases b
      simp [GroupVersionResource.groupVersion, and_assoc]
    rw [parts]
    exact GroupVersion.render_marked_inj rfl (by decide) ha hb clear clear'

/-- A version that holds the marker, names that recur, and a group with dots are told apart. -/
theorem render_unambiguous_alike :
    GroupVersion.render ⟨"", "v1"⟩ ≠ GroupVersion.render ⟨"v1", ""⟩ ∧
      GroupVersionKind.render ⟨"", "v1, Kind=Pod", "Pod"⟩ ≠
        GroupVersionKind.render ⟨"", "v1", "Pod"⟩ ∧
      GroupVersionResource.render ⟨"v1, Resource=pods", "v1", "pods"⟩ ≠
        GroupVersionResource.render ⟨"v1", "v1, Resource=pods", "pods"⟩ ∧
      GroupResource.render ⟨"k8s.io", "pods"⟩ ≠ GroupResource.render ⟨"", "pods"⟩ := by
  obtain ⟨versions, kinds, resources, groups⟩ := render_unambiguous
  refine ⟨?_, ?_, ?_, ?_⟩
  · exact mt (versions _ _ (by decide) (by decide)).1 (by decide)
  · exact mt (kinds _ _ (by decide) (by decide) (by decide) (by decide)).1 (by decide)
  · exact mt (resources _ _ (by decide) (by decide) (by decide) (by decide)).1 (by decide)
  · exact mt (groups _ _ (by decide) (by decide)).1 (by decide)

/-- Where the name of a kind holds the marker, two kinds share a text. -/
example : GroupVersionKind.render ⟨"", "v1, Kind=Pod", "Pod"⟩ =
    GroupVersionKind.render ⟨"", "v1", "Pod, Kind=Pod"⟩ := by decide

end Identifier

end ApiCatalog
