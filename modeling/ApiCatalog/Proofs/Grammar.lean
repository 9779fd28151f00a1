/-
# ApiCatalog.Proofs.Grammar -- which texts are group-versions

A text is a group-version when it keeps three rules: it has one slash at most; its
version, which is the part behind the slash, or all of the text where there is no
slash, is not empty; and neither end of the text is blank.  A text that breaks a
rule is refused for the first one, in this order (`parse_grammar`).

`Parts`, `ManySlashes`, `EmptyVersion` and `OuterBlank` say this of the text alone,
by counting slashes and looking at its ends, without cutting or trimming it.

Reading and rendering are inverse where they can be (`parse_render_inverse`): a
group-version is read back from its rendered text exactly where its parts hold no
slash and the text keeps the last two rules.  Blanks matter at the ends of the
whole text only, so a named group may end in one, and its version may begin with one.
-/
import ApiCatalog.Proofs.GroupVersions
import Mathlib.Logic.Basic

namespace ApiCatalog.GroupVersion

set_option autoImplicit false

/-! ## The rules -/

/-- The parts of a text: what stands before and behind a slash, or nothing and all of the text where
there is no slash. -/
def Parts (s : String) (gv : GroupVersion) : Prop :=
  s = gv.group ++ "/" ++ gv.version ∨ ('/' ∉ s.toList ∧ gv = ⟨"", s⟩)

/-- The first rule is broken: there is more than one slash. -/
def ManySlashes (s : String) : Prop := 1 < s.toList.count '/'

/-- The second rule is broken: nothing stands behind the slash, or there is nothing at all. -/
def EmptyVersion (s : String) : Prop := ∃ gv, Parts s gv ∧ gv.version = ""

/-- The third rule is broken: the first or the last character is blank. -/
def OuterBlank (s : String) : Prop :=
  ∃ c, (s.toList.head? = some c ∨ s.toList.getLast? = some c) ∧ Text.isBlank c = true

/-- The first rule that a text breaks. -/
def FirstFault (s : String) : Fault → Prop
  | .manySlashes => ManySlashes s
  | .emptyVersion => ¬ ManySlashes s ∧ EmptyVersion s
  | .outerBlank => ¬ ManySlashes s ∧ ¬ EmptyVersion s ∧ OuterBlank s

/-! ## Each rule as it is tried -/

theorem count_slash (group version : String) :
    (group ++ "/" ++ version).toList.count '/' =
      group.toList.count '/' + 1 + version.toList.count '/' := by
  simp only [String.toList_append, List.count_append]
  rfl

/-- Where a text has two slashes, the second one stands behind the first. -/
theorem slash_mem_version_iff (s : String) : '/' ∈ (split s).version.toList ↔ ManySlashes s := by
  rw [ManySlashes]
  rcases split_eq_iff.1 (rfl : split s = split s) with ⟨written, clear⟩ | ⟨whole, -, clear⟩
  · have front : (split s).group.toList.count '/' = 0 := List.count_eq_zero.2 clear
    have total : s.toList.count '/' = 0 + 1 + (split s).version.toList.count '/' := by
      calc s.toList.count '/'
          = ((split s).group ++ "/" ++ (split s).version).toList.count '/' := by rw [← written]
        _ = 0 + 1 + (split s).version.toList.count '/' := by rw [count_slash, front]
    rw [total, ← List.count_pos_iff]
    omega
  · rw [← whole, List.count_eq_zero.2 clear]
    exact iff_of_false clear (by omega)

theorem parts_split (s : String) : Parts s (split s) := by
  rcases split_eq_iff.1 (rfl : split s = split s) with ⟨written, -⟩ | ⟨whole, core, clear⟩
  · exact .inl written
  · refine .inr ⟨clear, ?_⟩
    calc split s = ⟨(split s).group, (split s).version⟩ := rfl
      _ = ⟨"", s⟩ := by rw [core, ← whole]

/-- A text with one slash at most has no parts but those that it is split into. -/
theorem eq_split_of_parts {s : String} (few : ¬ ManySlashes s) {gv : GroupVersion}
    (parts : Parts s gv) : gv = split s := by
  refine (split_eq_iff.2 ?_).symm
  rcases parts with rfl | ⟨clear, rfl⟩
  · refine .inl ⟨rfl, fun slash => few ?_⟩
    have front := List.count_pos_iff.2 slash
    rw [ManySlashes, count_slash]
    omega
  · exact .inr ⟨rfl, rfl, clear⟩

theorem version_eq_empty_iff {s : String} (few : ¬ ManySlashes s) :
    (split s).version = "" ↔ EmptyVersion s := by
  constructor
  · exact fun empty => ⟨split s, parts_split s, empty⟩
  · rintro ⟨gv, parts, empty⟩
    rw [← eq_split_of_parts few parts, empty]

theorem not_outerBlank_iff (s : String) : ¬ OuterBlank s ↔
    ∀ c, s.toList.head? = some c ∨ s.toList.getLast? = some c → Text.isBlank c = false := by
  simp [OuterBlank]

theorem trim_eq_self_iff_ends (s : String) : Text.trim s.toList = s.toList ↔ ¬ OuterBlank s := by
  rw [Text.trim_eq_self_iff, not_outerBlank_iff]
  simp only [or_imp, forall_and]

/-! ## What is accepted, and what is refused -/

theorem parse_eq_ok_iff_parts {s : String} {gv : GroupVersion} :
    parse s = .ok gv ↔
      Parts s gv ∧ ¬ ManySlashes s ∧ ¬ EmptyVersion s ∧ ¬ OuterBlank s := by
  rw [parse_eq_ok_iff, trim_eq_self_iff_ends]
  constructor
  · rintro ⟨rfl, clear, version, unblank⟩
    have few : ¬ ManySlashes s := mt (slash_mem_version_iff s).2 clear
    exact ⟨parts_split s, few, mt (version_eq_empty_iff few).2 version, unblank⟩
  · rintro ⟨parts, few, version, unblank⟩
    obtain rfl := eq_split_of_parts few parts
    exact ⟨rfl, mt (slash_mem_version_iff s).1 few, mt (version_eq_empty_iff few).1 version, unblank⟩

/-- A text is refused for the first rule that it breaks. -/
theorem parse_eq_error_iff {s : String} {why : Malformed} :
    parse s = .error why ↔ why.text = s ∧ FirstFault s why.fault := by
  obtain ⟨text, fault⟩ := why
  by_cases many : ManySlashes s
  · have refused : parse s = .error ⟨s, .manySlashes⟩ := by
      simp [parse, (slash_mem_version_iff s).2 many]
    cases fault <;> simp [refused, FirstFault, many, eq_comm]
  · by_cases empty : EmptyVersion s
    · have refused : parse s = .error ⟨s, .emptyVersion⟩ := by
        simp [parse, (version_eq_empty_iff many).2 empty]
      cases fault <;> simp [refused, FirstFault, many, empty, eq_comm]
    · by_cases blank : OuterBlank s
      · have refused : parse s = .error ⟨s, .outerBlank⟩ := by
          simp [parse, mt (slash_mem_version_iff s).1 many, mt (version_eq_empty_iff many).1 empty,
            trim_eq_self_iff_ends, blank]
        cases fault <;> simp [refused, FirstFault, many, empty, blank, eq_comm]
      · have read : parse s = .ok (split s) :=
          parse_eq_ok_iff_parts.2 ⟨parts_split s, many, empty, blank⟩
        cases fault <;> simp [read, FirstFault, many, empty, blank]

/-- Exactly the texts that keep the rules are read, as their parts; any other text is refused for the
first rule that it breaks. -/
theorem parse_grammar (s : String) :
    ((∃ gv, parse s = .ok gv) ↔
      s.toList.count '/' ≤ 1 ∧ (∀ gv, Parts s gv → gv.version ≠ "") ∧
        ∀ c, s.toList.head? = some c ∨ s.toList.getLast? = some c → Text.isBlank c = false) ∧
    (∀ gv, parse s = .ok gv → ∀ parts, Parts s parts ↔ parts = gv) ∧
    ∀ why, parse s = .error why ↔ why.text = s ∧ FirstFault s why.fault := by
  have few : s.toList.count '/' ≤ 1 ↔ ¬ ManySlashes s := Nat.not_lt.symm
  have version : (∀ gv, Parts s gv → gv.version ≠ "") ↔ ¬ EmptyVersion s := by
    simp [EmptyVersion]
  rw [few, version, ← not_outerBlank_iff]
  refine ⟨⟨?_, fun rules => ⟨split s, ?_⟩⟩, fun gv read parts => ⟨fun there => ?_, ?_⟩,
    fun why => parse_eq_error_iff⟩
  · rintro ⟨gv, read⟩
    exact (parse_eq_ok_iff_parts.1 read).2
  · exact parse_eq_ok_iff_parts.2 ⟨parts_split s, rules⟩
  · rw [eq_split_of_parts (parse_eq_ok_iff_parts.1 read).2.1 there]
    exact (eq_split_of_parse_eq_ok read).symm
  · rintro rfl
    exact (parse_eq_ok_iff_parts.1 read).1

/-- A text that keeps the rules, and one that breaks all three and is refused for the first. -/
theorem parse_grammar_slashes :
    parse "apps/v1" = .ok ⟨"apps", "v1"⟩ ∧
      (∀ parts, Parts "apps/v1" parts ↔ parts = ⟨"apps", "v1"⟩) ∧
      parse " a/b/" = .error ⟨" a/b/", .manySlashes⟩ := by
  obtain ⟨-, parts, -⟩ := parse_grammar "apps/v1"
  obtain ⟨-, -, refused⟩ := parse_grammar " a/b/"
  have read : parse "apps/v1" = .ok ⟨"apps", "v1"⟩ := by rfl
  have many : ManySlashes " a/b/" := by
    show 1 < " a/b/".toList.count '/'
    decide
  exact ⟨read, parts _ read, (refused _).2 ⟨rfl, many⟩⟩

/-! ## Reading what was rendered -/

/-- The parts of a rendered text are those that were rendered, where these hold no slash. -/
theorem split_render_iff {gv : GroupVersion} (clear : '/' ∉ gv.version.toList) :
    split gv.render = gv ↔ '/' ∉ gv.group.toList := by
  rw [split_eq_iff]
  by_cases core : gv.group = ""
  · simp [render, core, clear]
  · simp [render, core]

/-- Reading and rendering are inverse where they can be. -/
theorem parse_render_inverse :
    (∀ gv : GroupVersion, parse gv.render = .ok gv ↔
      '/' ∉ gv.group.toList ∧ '/' ∉ gv.version.toList ∧ gv.version ≠ "" ∧
        ∀ c, gv.render.toList.head? = some c ∨ gv.render.toList.getLast? = some c →
          Text.isBlank c = false) ∧
    ∀ (s : String) (gv : GroupVersion), parse s = .ok gv →
      (gv.render = s ↔ ¬ Slashed s) ∧ (Slashed s → s = "/" ++ gv.render) := by
  refine ⟨fun gv => ?_, fun s gv read => ⟨render_eq_iff_of_parse read, fun slashed => ?_⟩⟩
  · rw [parse_eq_ok_iff, trim_eq_self_iff_ends, not_outerBlank_iff]
    constructor
    · rintro ⟨parts, clear, version, ends⟩
      exact ⟨(split_render_iff clear).1 parts, clear, version, ends⟩
    · rintro ⟨group, clear, version, ends⟩
      exact ⟨(split_render_iff clear).2 group, clear, version, ends⟩
  · rcases render_of_parse read with ⟨plain, -⟩ | ⟨-, -, behind⟩
    · exact absurd slashed plain
    · exact behind.symm

/-- Blanks beside the slash are kept, and an empty group before a slash is not. -/
theorem parse_render_inverse_blanks :
    parse (render ⟨"apps ", " v1"⟩) = .ok ⟨"apps ", " v1"⟩ ∧
      parse "/v1" = .ok ⟨"", "v1"⟩ ∧ render ⟨"", "v1"⟩ ≠ "/v1" ∧ "/v1" = "/" ++ render ⟨"", "v1"⟩ := by
  have read : parse "/v1" = .ok ⟨"", "v1"⟩ := by rfl
  have slashed : Slashed "/v1" := by decide
  obtain ⟨same, behind⟩ := parse_render_inverse.2 "/v1" ⟨"", "v1"⟩ read
  have blanks := parse_render_inverse.1 ⟨"apps ", " v1"⟩
  refine ⟨blanks.2 ⟨by decide, by decide, by decide, ?_⟩, read, fun whole => same.1 whole slashed,
    behind slashed⟩
  rintro c (first | last)
  · cases first
    decide
  · cases last
    decide

end ApiCatalog.GroupVersion
