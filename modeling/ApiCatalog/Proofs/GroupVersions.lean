/-
# ApiCatalog.Proofs.GroupVersions -- what is read of a text, and what is written again

A text that is read as a group-version is its written form, or the written form of
a core version behind a slash (`render_of_parse`): an empty group may be written
out in front of its slash, but is never rendered so.  That slash is all that
reading and rendering lose, so texts that are read as one group-version differ by
it at most (`eq_or_slash_of_parse`).
-/
import ApiCatalog.GroupVersion.Parser

namespace ApiCatalog.GroupVersion

set_option autoImplicit false

/-- A text is split at its first slash, or is a version of the core group. -/
theorem split_eq_iff {s : String} {gv : GroupVersion} :
    split s = gv ↔ (s = gv.group ++ "/" ++ gv.version ∧ '/' ∉ gv.group.toList) ∨
      (s = gv.version ∧ gv.group = "" ∧ '/' ∉ s.toList) := by
  obtain ⟨group, version⟩ := gv
  have written : s = group ++ "/" ++ version ↔
      s.toList = group.toList ++ '/' :: version.toList := by
    rw [← String.toList_inj]
    simp
  cases cut : Text.cut? '/' s with
  | some parts =>
    obtain ⟨front, back⟩ := parts
    obtain ⟨around, clear⟩ := Text.cut?_eq_some_iff.1 cut
    have slash : '/' ∈ s.toList := by simp [around]
    have same : split s = ⟨group, version⟩ ↔ Text.cut? '/' s = some (group, version) := by
      simp [split, cut]
    rw [same, Text.cut?_eq_some_iff, written]
    exact (or_iff_left fun core => core.2.2 slash).symm
  | none =>
    have clear : '/' ∉ s.toList := Text.cut?_eq_none_iff.1 cut
    have uncut : ¬ (s = group ++ "/" ++ version) := by
      rintro rfl
      simp at clear
    simp [split, cut, uncut, clear, and_comm, eq_comm]

/-- What is read is the split of the text, where the three rules are kept. -/
theorem parse_eq_ok_iff {s : String} {gv : GroupVersion} :
    parse s = .ok gv ↔ split s = gv ∧ '/' ∉ gv.version.toList ∧ gv.version ≠ "" ∧
      Text.trim s.toList = s.toList := by
  constructor
  · intro read
    obtain rfl := eq_split_of_parse_eq_ok read
    by_cases slash : '/' ∈ (split s).version.toList
    · simp [parse, slash] at read
    · by_cases empty : (split s).version = ""
      · simp [parse, empty] at read
      · by_cases unblank : Text.trim s.toList = s.toList
        · exact ⟨rfl, slash, empty, unblank⟩
        · simp [parse, slash, empty, unblank] at read
  · rintro ⟨rfl, clear, version, unblank⟩
    simp [parse, clear, version, unblank]

/-- A text that begins with a slash, as where an empty group is written out. -/
def Slashed (s : String) : Prop := s.toList.head? = some '/'

instance (s : String) : Decidable (Slashed s) := inferInstanceAs (Decidable (_ = _))

/-- A text that is read is rendered as itself, but for a slash that it begins with. -/
theorem render_of_parse {s : String} {gv : GroupVersion} (read : parse s = .ok gv) :
    (¬ Slashed s ∧ gv.render = s) ∨ (Slashed s ∧ gv.group = "" ∧ "/" ++ gv.render = s) := by
  obtain ⟨parts, -⟩ := parse_eq_ok_iff.1 read
  rcases split_eq_iff.1 parts with ⟨rfl, clear⟩ | ⟨rfl, core, clear⟩
  · by_cases core : gv.group = ""
    · refine .inr ⟨?_, core, ?_⟩
      · simp [Slashed, core]
      · simp [render, core]
    · refine .inl ⟨fun slashed => ?_, render_named _ core⟩
      -- the first character is one of the group, which holds no slash
      cases front : gv.group.toList with
      | nil => exact core (String.toList_inj.1 front)
      | cons c rest =>
        simp only [Slashed, String.toList_append, front, List.cons_append, List.head?_cons,
          Option.some.injEq] at slashed
        exact clear (by simp [front, slashed])
  · refine .inl ⟨fun slashed => clear (List.mem_of_head? slashed), ?_⟩
    rw [render, if_pos core]

/-- Reading and rendering give the text back exactly where it does not begin with a slash. -/
theorem render_eq_iff_of_parse {s : String} {gv : GroupVersion} (read : parse s = .ok gv) :
    gv.render = s ↔ ¬ Slashed s := by
  rcases render_of_parse read with ⟨plain, same⟩ | ⟨slashed, -, behind⟩
  · exact iff_of_true same plain
  · refine iff_of_false (fun same => ?_) (not_not_intro slashed)
    have longer := congrArg (fun t : String => t.toList.length) behind
    simp [same] at longer

/-- Texts that are read as one group-version differ by a slash at the front at most. -/
theorem eq_or_slash_of_parse {s t : String} {gv : GroupVersion} (first : parse s = .ok gv)
    (second : parse t = .ok gv) : s = t ∨ s = "/" ++ t ∨ t = "/" ++ s := by
  rcases render_of_parse first with ⟨-, rfl⟩ | ⟨-, -, rfl⟩
  · rcases render_of_parse second with ⟨-, same⟩ | ⟨-, -, behind⟩
    · exact .inl same
    · exact .inr (.inr behind.symm)
  · rcases render_of_parse second with ⟨-, rfl⟩ | ⟨-, -, same⟩
    · exact .inr (.inl rfl)
    · exact .inl same

end ApiCatalog.GroupVersion
