/-
# ApiCatalog.GroupVersion.Parser -- reading a group-version

A text is read as `version` or as `group/version`.  Three faults are told apart
and looked for in this order: more than one slash, an empty version, and a blank
at either end of the whole text.  `GroupVersion.parse` answers with the first of
them that applies, together with the text it was given.
-/
import ApiCatalog.GroupVersion
import ApiCatalog.Text.Blank
import ApiCatalog.Text.Cut
import ApiCatalog.Text.Quoted

namespace ApiCatalog

set_option autoImplicit false

/-- What is wrong with a text that is no group-version. -/
inductive GroupVersion.Fault where
  | manySlashes
  | emptyVersion
  | outerBlank
deriving DecidableEq, Repr

/-- The wording of a fault. -/
def GroupVersion.Fault.reason : GroupVersion.Fault → String
  | .manySlashes => "expected at most one '/'"
  | .emptyVersion => "version is empty"
  | .outerBlank => "surrounding whitespace"

/-- A text that is no group-version, and why. -/
structure Malformed where
  text : String
  fault : GroupVersion.Fault
deriving DecidableEq, Repr

/-- The message of a refusal: the text in quotation marks, then the reason. -/
def Malformed.message (m : Malformed) : String :=
  "invalid group/version " ++ Text.quote m.text ++ ": " ++ m.fault.reason

namespace GroupVersion

/-- The parts before and after the first slash; without a slash, all of it is the version. -/
def split (s : String) : GroupVersion :=
  match Text.cut? '/' s with
  | some (group, version) => ⟨group, version⟩
  | none => ⟨"", s⟩

/-- Read a group-version, or name the first rule that the text breaks. -/
def parse (s : String) : Except Malformed GroupVersion :=
  let parts := split s
  if '/' ∈ parts.version.toList then .error ⟨s, .manySlashes⟩
  else if parts.version = "" then .error ⟨s, .emptyVersion⟩
  else if Text.trim s.toList ≠ s.toList then .error ⟨s, .outerBlank⟩
  else .ok parts

/-- A refusal carries the text that was read. -/
theorem text_of_parse_eq_error {s : String} {m : Malformed} (h : parse s = .error m) :
    m.text = s := by
  unfold parse at h
  grind

/-- What is read is the split of the text. -/
theorem eq_split_of_parse_eq_ok {s : String} {gv : GroupVersion} (h : parse s = .ok gv) :
    gv = split s := by
  unfold parse at h
  grind

end GroupVersion

end ApiCatalog
