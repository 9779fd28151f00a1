/-
# ApiCatalog.Settings -- settings from the environment

Every setting is a variable whose name starts with `KUBEDISCOVERY_`.  The two
times are numbers, kept within their bounds; the level and the format of the log
are words in any letter case; the strictness is true for `true`, `1` and `yes`.
A variable that is not set stands for the default, and one that is set to the
empty text is read like any other.

`Settings.load` reads the variables in a fixed order and answers with the first
text that it must refuse.
-/
import ApiCatalog.Decimal.Numeral
import ApiCatalog.Report.Sink

namespace ApiCatalog

set_option autoImplicit false

/-- The values of the variables that are set. -/
abbrev Environment := String → Option String

/-- The common start of the names of variables. -/
def Environment.stem : String := "KUBEDISCOVERY_"

/-- The value of a setting's variable. -/
def Environment.setting? (env : Environment) (key : String) : Option String :=
  env (Environment.stem ++ key)

namespace Settings

/-- A text that is no value of its setting. -/
inductive Refusal where
  | noNumber (text : String)
  | unknownLevel (text : String)
  | unknownFormat (text : String)
deriving DecidableEq, Repr

/-- The wording of a refusal. -/
def Refusal.message : Refusal → String
  | .noNumber text => "could not convert string to float: " ++ Text.quote text
  | .unknownLevel text => "Invalid log level: " ++ text
  | .unknownFormat text => "Invalid log format: " ++ text

/-- A number raised to a bound that is strictly greater. -/
def raiseTo (least : Option Float) (x : Float) : Float :=
  match least with
  | some bound => if x < bound then bound else x
  | none => x

/-- A number lowered to a bound that is strictly smaller. -/
def lowerTo (most : Option Float) (x : Float) : Float :=
  match most with
  | some bound => if bound < x then bound else x
  | none => x

/-- A number first raised to the lower bound, then lowered to the upper one. -/
def clamp (least most : Option Float) (x : Float) : Float := lowerTo most (raiseTo least x)

/-- A setting that is a number, the default clamped like any other. -/
def number (env : Environment) (key : String) (default : Float) (least most : Option Float) :
    Except Refusal Float :=
  match env.setting? key with
  | none => .ok (clamp least most default)
  | some text =>
    match Decimal.Numeral.read? text with
    | some numeral => .ok (clamp least most numeral.toFloat)
    | none => .error (.noNumber text)

/-- The words for true. -/
def trueWords : List String := ["true", "1", "yes"]

/-- A setting that is true or false. -/
def flag (env : Environment) (key : String) (default : Bool) : Bool :=
  match env.setting? key with
  | none => default
  | some text => trueWords.contains (Text.lower text)

/-- The levels that a setting may name. -/
def levels : List Report.Level := [.debug, .info, .warning, .error]

/-- The level of a word in any letter case. -/
def level? (text : String) : Option Report.Level :=
  levels.find? fun level => level.name = Text.lower text

/-- The format of a word in any letter case. -/
def format? (text : String) : Option Report.Format := Report.Format.ofName? (Text.lower text)

/-- A setting that is a log level. -/
def logLevel (env : Environment) (key : String) (default : Report.Level) :
    Except Refusal Report.Level :=
  match env.setting? key with
  | none => .ok default
  | some text =>
    match level? text with
    | some level => .ok level
    | none => .error (.unknownLevel text)

/-- A setting that is a log format. -/
def logFormat (env : Environment) (key : String) (default : Report.Format) :
    Except Refusal Report.Format :=
  match env.setting? key with
  | none => .ok default
  | some text =>
    match format? text with
    | some format => .ok format
    | none => .error (.unknownFormat text)

end Settings

/-- The settings of a catalogue. -/
structure Settings where
  /-- Seconds from the start of one refresh to the start of the next. -/
  refreshInterval : Float
  /-- Seconds after which a request to the cluster is given up. -/
  requestTimeout : Float
  /-- Whether a group-version that cannot be read stops the indexing. -/
  strictGroupVersions : Bool
  level : Report.Level
  format : Report.Format

namespace Settings

/-- Read all settings. -/
def load (env : Environment) : Except Refusal Settings := do
  let refreshInterval ← number env "REFRESH_INTERVAL" 30.0 (some 1.0) (some 3600.0)
  let requestTimeout ← number env "REQUEST_TIMEOUT" 10.0 (some 1.0) (some 120.0)
  let level ← logLevel env "LOG_LEVEL" .info
  let format ← logFormat env "LOG_FORMAT" .json
  return {
    refreshInterval
    requestTimeout
    strictGroupVersions := flag env "STRICT_GROUP_VERSIONS" true
    level
    format }

theorem bind_eq_ok_iff {ε α β : Type} {attempt : Except ε α} {next : α → Except ε β} {b : β} :
    attempt >>= next = .ok b ↔ ∃ a, attempt = .ok a ∧ next a = .ok b := by
  cases attempt <;> simp [bind, Except.bind]

/-- Settings that were read hold what was read of each variable. -/
theorem load_eq_ok_iff {env : Environment} {s : Settings} :
    load env = .ok s ↔
      number env "REFRESH_INTERVAL" 30.0 (some 1.0) (some 3600.0) = .ok s.refreshInterval ∧
      number env "REQUEST_TIMEOUT" 10.0 (some 1.0) (some 120.0) = .ok s.requestTimeout ∧
      logLevel env "LOG_LEVEL" .info = .ok s.level ∧
      logFormat env "LOG_FORMAT" .json = .ok s.format ∧
      flag env "STRICT_GROUP_VERSIONS" true = s.strictGroupVersions := by
  unfold load
  simp only [bind_eq_ok_iff]
  constructor
  · rintro ⟨_, interval, _, timeout, _, level, _, format, whole⟩
    cases whole
    exact ⟨interval, timeout, level, format, rfl⟩
  · rintro ⟨interval, timeout, level, format, strict⟩
    refine ⟨_, interval, _, timeout, _, level, _, format, ?_⟩
    rw [strict]
    rfl

end Settings

end ApiCatalog
