/-
# ApiCatalog.Proofs.Environments -- which environments are read as settings, and what of them is refused

Four variables are checked, two that are read as numbers and two that are read as words, in
the order of `checks`.  A variable that is not set passes, and one that is set passes with a
text that its reading accepts (`Reading.Accepts`): the empty text is a text like any other.

Settings are read exactly when all four pass, and otherwise the first that does not is
refused, whatever the others hold (`load_checked`).  The strictness is no part of this: any
text stands for true or for false.

A word is accepted in any case of its ASCII letters and in no other spelling, although it
is compared in the full lower case (`Text.lower_eq_iff`); so a text that is accepted is
ASCII, and the level or the format is the word that it spells.
-/
import ApiCatalog.Settings
import ApiCatalog.Proofs.Numerals

namespace ApiCatalog.Settings

set_option autoImplicit false

variable {env : Environment} {key text : String}

/-! ## What is accepted -/

/-- How the text of a variable that is checked is read. -/
inductive Reading where
  | number
  | level
  | format
deriving DecidableEq, Repr

namespace Reading

/-- The texts that can be read. -/
def Accepts : Reading → String → Prop
  | number, text => ∃ numeral : Decimal.Numeral, numeral.Written text
  | level, text => ∃ word ∈ ["debug", "info", "warning", "error"], Text.Spells text word
  | format, text => ∃ word ∈ ["json", "console"], Text.Spells text word

/-- How any other text is refused. -/
def refusal : Reading → String → Refusal
  | number => .noNumber
  | level => .unknownLevel
  | format => .unknownFormat

theorem accepts_number_iff (text : String) :
    number.Accepts text ↔ (Decimal.Numeral.read? text).isSome = true := by
  simp [Accepts, Option.isSome_iff_exists, Decimal.Numeral.read?_eq_some_iff]

instance : (reading : Reading) → (text : String) → Decidable (reading.Accepts text)
  | number, _ => decidable_of_iff _ (accepts_number_iff _).symm
  | level, text => inferInstanceAs
      (Decidable (∃ word ∈ ["debug", "info", "warning", "error"], Text.Spells text word))
  | format, text => inferInstanceAs (Decidable (∃ word ∈ ["json", "console"], Text.Spells text word))

end Reading

/-- A variable that is checked, and how its text is read. -/
structure Check where
  key : String
  reading : Reading
deriving DecidableEq, Repr

/-- The checks, in the order in which they are made. -/
def checks : List Check :=
  [⟨"REFRESH_INTERVAL", .number⟩, ⟨"REQUEST_TIMEOUT", .number⟩, ⟨"LOG_LEVEL", .level⟩,
    ⟨"LOG_FORMAT", .format⟩]

namespace Check

/-- The variable is not set, or its text can be read. -/
def Passes (check : Check) (env : Environment) : Prop :=
  ∀ text, env.setting? check.key = some text → check.reading.Accepts text

/-- What a check refuses, if anything. -/
def refusal? (env : Environment) (check : Check) : Option Refusal :=
  match env.setting? check.key with
  | none => none
  | some text => if check.reading.Accepts text then none else some (check.reading.refusal text)

theorem refusal?_eq_some_iff {check : Check} {why : Refusal} :
    check.refusal? env = some why ↔ ∃ text, env.setting? check.key = some text ∧
      ¬ check.reading.Accepts text ∧ why = check.reading.refusal text := by
  unfold refusal?
  cases env.setting? check.key with
  | none => simp
  | some text => by_cases accepted : check.reading.Accepts text <;> simp [accepted, eq_comm]

theorem refusal?_eq_none_iff {check : Check} : check.refusal? env = none ↔ check.Passes env := by
  unfold refusal? Passes
  cases env.setting? check.key with
  | none => simp
  | some text => by_cases accepted : check.reading.Accepts text <;> simp [accepted]

instance (check : Check) (env : Environment) : Decidable (check.Passes env) :=
  decidable_of_iff _ refusal?_eq_none_iff

end Check

/-! ## Words -/

/-- Among things with plain names, the one whose name a text has in lower case is the one whose name it
spells. -/
theorem find?_lower_eq_some_iff {α : Type} {name : α → String} {list : List α}
    (plain : ∀ a ∈ list, Text.PlainWord (name a))
    (distinct : ∀ a ∈ list, ∀ b ∈ list, name a = name b → a = b) {a : α} :
    list.find? (fun a => decide (name a = Text.lower text)) = some a ↔
      a ∈ list ∧ Text.Spells text (name a) := by
  constructor
  · intro found
    have member := List.mem_of_find?_eq_some found
    have same : name a = Text.lower text := by simpa using List.find?_some found
    exact ⟨member, (Text.lower_eq_iff (plain a member)).1 same.symm⟩
  · rintro ⟨member, spelt⟩
    have same := (Text.lower_eq_iff (plain a member)).2 spelt
    cases found : list.find? (fun a => decide (name a = Text.lower text)) with
    | none => exact absurd (List.find?_eq_none.1 found a member) (by simp [same])
    | some b =>
      have other : name b = Text.lower text := by simpa using List.find?_some found
      rw [distinct b (List.mem_of_find?_eq_some found) a member (other.trans same)]

theorem isSome_find?_lower_iff {α : Type} {name : α → String} {list : List α}
    (plain : ∀ a ∈ list, Text.PlainWord (name a))
    (distinct : ∀ a ∈ list, ∀ b ∈ list, name a = name b → a = b) :
    (list.find? fun a => decide (name a = Text.lower text)).isSome = true ↔
      ∃ word ∈ list.map name, Text.Spells text word := by
  simp only [Option.isSome_iff_exists, find?_lower_eq_some_iff plain distinct, List.mem_map]
  constructor
  · rintro ⟨a, member, spelt⟩
    exact ⟨name a, ⟨a, member, rfl⟩, spelt⟩
  · rintro ⟨_, ⟨a, member, rfl⟩, spelt⟩
    exact ⟨a, member, spelt⟩

theorem Reading.accepts_level_iff (text : String) :
    level.Accepts text ↔ (level? text).isSome = true :=
  (@isSome_find?_lower_iff text _ Report.Level.name levels (by decide) (by decide)).symm

theorem Reading.accepts_format_iff (text : String) :
    format.Accepts text ↔ (format? text).isSome = true :=
  (@isSome_find?_lower_iff text _ Report.Format.name [.json, .console] (by decide) (by decide)).symm

/-- What is true by default is true unless it is set to a text that spells no word for true. -/
theorem flag_eq_true_iff : flag env key true = true ↔ env.setting? key = none ∨
    ∃ text, env.setting? key = some text ∧ ∃ word ∈ ["true", "1", "yes"], Text.Spells text word := by
  have plain : ∀ word ∈ trueWords, Text.PlainWord word := by decide
  have spelt : ∀ text, trueWords.contains (Text.lower text) = true ↔
      ∃ word ∈ ["true", "1", "yes"], Text.Spells text word := by
    intro text
    rw [List.contains_iff_mem]
    constructor
    · exact fun known => ⟨_, known, (Text.lower_eq_iff (plain _ known)).1 rfl⟩
    · rintro ⟨word, known, spelt⟩
      rwa [(Text.lower_eq_iff (plain _ known)).2 spelt]
  unfold flag
  cases env.setting? key with
  | none => simp
  | some text =>
    simp only [reduceCtorEq, false_or, Option.some.injEq, exists_eq_left']
    exact spelt text

/-! ## One check after the other -/

/-- An attempt that fails with what is refused, and only then. -/
def FailsAs {α : Type} (attempt : Except Refusal α) (refused : Option Refusal) : Prop :=
  ∀ why, attempt = .error why ↔ refused = some why

section FailsAs

variable {α β : Type} {attempt : Except Refusal α} {refused : Option Refusal}

theorem FailsAs.exists_ok_iff (fails : FailsAs attempt refused) :
    (∃ a, attempt = .ok a) ↔ refused = none := by
  cases attempt with
  | error why => simp [(fails why).1 rfl]
  | ok a =>
    have passed : refused = none := Option.eq_none_iff_forall_ne_some.2 fun why refuses => by
      cases (fails why).2 refuses
    simp [passed]

/-- The first of several checks that fails decides. -/
theorem failsAs_bind {check : Check} {later : List Check} {go : α → Except Refusal β}
    (first : FailsAs attempt (check.refusal? env))
    (rest : ∀ a, attempt = .ok a → FailsAs (go a) (later.findSome? (·.refusal? env))) :
    FailsAs (attempt >>= go) ((check :: later).findSome? (·.refusal? env)) := by
  intro why
  rw [List.findSome?_cons]
  cases attempt with
  | error refusal =>
    rw [(first refusal).1 rfl]
    exact iff_of_eq (by simp [bind, Except.bind])
  | ok a =>
    rw [first.exists_ok_iff.1 ⟨a, rfl⟩]
    exact rest a rfl why

end FailsAs

/-! ## One variable -/

section OneVariable

variable {α β : Type} {unset : α} {read? : String → Option β} {keep : β → α}
  {refusal : String → Refusal}

/-- What is kept of the text of a variable, or what stands for one that is not set. -/
def ofText (env : Environment) (key : String) (unset : α) (read? : String → Option β) (keep : β → α)
    (refusal : String → Refusal) : Except Refusal α :=
  match env.setting? key with
  | none => .ok unset
  | some text =>
    match read? text with
    | some b => .ok (keep b)
    | none => .error (refusal text)

/-- A variable fails on the texts that its reading does not accept. -/
theorem failsAs_ofText {reading : Reading}
    (accepts : ∀ text, reading.Accepts text ↔ (read? text).isSome = true) :
    FailsAs (ofText env key unset read? keep reading.refusal) (Check.refusal? env ⟨key, reading⟩) := by
  intro why
  unfold ofText Check.refusal?
  cases env.setting? key with
  | none => simp
  | some text => cases means : read? text <;> simp [accepts, means]

theorem ofText_eq_ok_iff {a : α} : ofText env key unset read? keep refusal = .ok a ↔
    (env.setting? key = none ∧ unset = a) ∨
      ∃ text b, env.setting? key = some text ∧ read? text = some b ∧ keep b = a := by
  unfold ofText
  cases env.setting? key with
  | none => simp
  | some text => cases means : read? text <;> simp [means]

/-- Where texts are names in any case, the name of what is kept is the one that the text spells. -/
theorem spells_of_ofText {name : α → String} {list : List α}
    (plain : ∀ a ∈ list, Text.PlainWord (name a))
    (distinct : ∀ a ∈ list, ∀ b ∈ list, name a = name b → a = b)
    (itself : Text.Spells (name unset) (name unset)) {a : α}
    (kept : ofText env key unset (fun text => list.find? fun a => decide (name a = Text.lower text)) id
      refusal = .ok a) :
    Text.Spells ((env.setting? key).getD (name unset)) (name a) := by
  rcases ofText_eq_ok_iff.1 kept with ⟨silent, rfl⟩ | ⟨text, b, set, means, rfl⟩
  · rw [silent]
    exact itself
  · rw [set]
    exact ((find?_lower_eq_some_iff plain distinct).1 means).2

end OneVariable

theorem number_eq (default : Float) (least most : Option Float) :
    number env key default least most =
      ofText env key (clamp least most default) Decimal.Numeral.read?
        (fun numeral => clamp least most numeral.toFloat) Reading.number.refusal := by
  unfold number ofText
  cases env.setting? key with
  | none => rfl
  | some text =>
    dsimp only
    cases Decimal.Numeral.read? text <;> rfl

theorem logLevel_eq (default : Report.Level) :
    logLevel env key default = ofText env key default level? id Reading.level.refusal := by
  unfold logLevel ofText
  cases env.setting? key with
  | none => rfl
  | some text =>
    dsimp only
    cases level? text <;> rfl

theorem logFormat_eq (default : Report.Format) :
    logFormat env key default = ofText env key default format? id Reading.format.refusal := by
  unfold logFormat ofText
  cases env.setting? key with
  | none => rfl
  | some text =>
    dsimp only
    cases format? text <;> rfl

/-! ## Settings -/

/-- Settings fail as the first check does that fails. -/
theorem failsAs_load (env : Environment) :
    FailsAs (load env) (checks.findSome? (·.refusal? env)) := by
  unfold load
  simp only [number_eq, logLevel_eq, logFormat_eq]
  refine failsAs_bind (failsAs_ofText Reading.accepts_number_iff) fun _ _ => ?_
  refine failsAs_bind (failsAs_ofText Reading.accepts_number_iff) fun _ _ => ?_
  refine failsAs_bind (failsAs_ofText Reading.accepts_level_iff) fun _ _ => ?_
  refine failsAs_bind (failsAs_ofText Reading.accepts_format_iff) fun _ _ => ?_
  exact fun why => iff_of_false nofun nofun

/-- Exactly the environments are read whose four variables pass, and of any other the first that does not
is refused. -/
theorem load_checked (env : Environment) :
    ((∃ s, load env = .ok s) ↔ ∀ check ∈ checks, check.Passes env) ∧
    (∀ why, load env = .error why ↔ ∃ before check after text,
      checks = before ++ check :: after ∧ (∀ c ∈ before, c.Passes env) ∧
        env.setting? check.key = some text ∧ ¬ check.reading.Accepts text ∧
          why = check.reading.refusal text) ∧
    ∀ s, load env = .ok s →
      Text.Spells ((env.setting? "LOG_LEVEL").getD "info") s.level.name ∧
      Text.Spells ((env.setting? "LOG_FORMAT").getD "json") s.format.name ∧
      (∀ key ∈ ["LOG_LEVEL", "LOG_FORMAT"], ∀ text, env.setting? key = some text →
        ∀ c ∈ text.toList, c.toNat < 128) ∧
      (s.strictGroupVersions = true ↔ env.setting? "STRICT_GROUP_VERSIONS" = none ∨
        ∃ text, env.setting? "STRICT_GROUP_VERSIONS" = some text ∧
          ∃ word ∈ ["true", "1", "yes"], Text.Spells text word) := by
  refine ⟨?_, fun why => ?_, fun s loaded => ?_⟩
  · rw [(failsAs_load env).exists_ok_iff, List.findSome?_eq_none_iff]
    simp only [Check.refusal?_eq_none_iff]
  · rw [failsAs_load env why, List.findSome?_eq_some_iff]
    simp only [Check.refusal?_eq_none_iff, Check.refusal?_eq_some_iff]
    constructor
    · rintro ⟨before, check, after, order, ⟨text, set, refused, same⟩, passed⟩
      exact ⟨before, check, after, text, order, passed, set, refused, same⟩
    · rintro ⟨before, check, after, text, order, passed, set, refused, same⟩
      exact ⟨before, check, after, order, ⟨text, set, refused, same⟩, passed⟩
  · obtain ⟨-, -, level, format, strict⟩ := load_eq_ok_iff.1 loaded
    have levelSpelt : Text.Spells ((env.setting? "LOG_LEVEL").getD "info") s.level.name :=
      spells_of_ofText (by decide) (by decide) (by decide) ((logLevel_eq _).symm.trans level)
    have formatSpelt : Text.Spells ((env.setting? "LOG_FORMAT").getD "json") s.format.name :=
      spells_of_ofText (by decide) (by decide) (by decide) ((logFormat_eq _).symm.trans format)
    refine ⟨levelSpelt, formatSpelt, ?_, ?_⟩
    · intro key known text set
      simp only [List.mem_cons, List.not_mem_nil, or_false] at known
      rcases known with rfl | rfl
      · rw [set] at levelSpelt
        exact levelSpelt.ascii (by cases s.level <;> decide)
      · rw [set] at formatSpelt
        exact formatSpelt.ascii (by cases s.format <;> decide)
    · rw [← strict]
      exact flag_eq_true_iff

/-- An environment that passes, with a digit of another script and words in mixed case. -/
def mixed : Environment := fun name =>
  if name = "KUBEDISCOVERY_REFRESH_INTERVAL" then some "\uff11_0.5E+1"
  else if name = "KUBEDISCOVERY_LOG_LEVEL" then some "WarNing"
  else if name = "KUBEDISCOVERY_STRICT_GROUP_VERSIONS" then some "YES"
  else none

/-- An environment with two faults: a low line that follows another, and a level whose first letter
is no ASCII letter. -/
def faulty : Environment := fun name =>
  if name = "KUBEDISCOVERY_REQUEST_TIMEOUT" then some "1__0"
  else if name = "KUBEDISCOVERY_LOG_LEVEL" then some "\u0130nfo"
  else none

/-- The first environment is read, and the second one is refused for the first of its faults. -/
theorem load_checked_mixed :
    (∃ s, load mixed = .ok s ∧ Text.Spells "WarNing" s.level.name ∧
      Text.Spells "json" s.format.name ∧ s.strictGroupVersions = true) ∧
    load faulty = .error (.noNumber "1__0") := by
  obtain ⟨accepted, -, kept⟩ := load_checked mixed
  obtain ⟨-, refused, -⟩ := load_checked faulty
  constructor
  · obtain ⟨s, loaded⟩ := accepted.2 (by decide)
    obtain ⟨level, format, -, strict⟩ := kept s loaded
    exact ⟨s, loaded, level, format, strict.2 (.inr ⟨"YES", rfl, by decide⟩)⟩
  · exact (refused _).2 ⟨[⟨"REFRESH_INTERVAL", .number⟩], ⟨"REQUEST_TIMEOUT", .number⟩, _, "1__0", rfl,
      by decide, rfl, by decide, rfl⟩

end ApiCatalog.Settings
