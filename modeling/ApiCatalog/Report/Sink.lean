/-
# ApiCatalog.Report.Sink -- where log lines go and what they look like

A sink has a threshold and a format.  A line below the threshold is dropped; any
other is written as a table of fields or as text for a reader.  In both, the
line's own fields come first, and the event, the level and the time of writing
replace fields of the same name.
-/
import ApiCatalog.Report.Line
import ApiCatalog.Table
import ApiCatalog.Text.Case
import ApiCatalog.TextSet

namespace ApiCatalog.Report

set_option autoImplicit false

/-- The formats of a written line. -/
inductive Format where
  | json
  | console
deriving DecidableEq, Repr

namespace Format

/-- The name of a format. -/
def name : Format → String
  | .json => "json"
  | .console => "console"

/-- The format of a name, in this spelling only. -/
def ofName? (s : String) : Option Format :=
  [Format.json, .console].find? fun format => format.name = s

end Format

/-- Where log lines go. -/
structure Sink where
  threshold : Nat
  format : Format
deriving DecidableEq, Repr

namespace Sink

/-- The names of thresholds. -/
def thresholds : List (String × Nat) :=
  [("DEBUG", Level.debug.rank), ("INFO", Level.info.rank), ("WARNING", Level.warning.rank),
    ("WARN", Level.warning.rank), ("ERROR", Level.error.rank), ("CRITICAL", Level.critical.rank),
    ("FATAL", Level.critical.rank), ("NOTSET", 0)]

/-- The threshold of a name in any letter case; an unknown name stands for `INFO`. -/
def thresholdOf (name : String) : Nat :=
  (thresholds.lookup (Text.upper name)).getD Level.info.rank

/-- A format name that is neither `json` nor `console`. -/
structure UnknownFormat where
  name : String
deriving DecidableEq, Repr

/-- The wording of a refused format. -/
def UnknownFormat.message (refused : UnknownFormat) : String :=
  "Invalid log format: " ++ refused.name ++ ". Must be one of ('json', 'console')"

/-- The sink for a threshold name and a format name, by default `info` and `json`. -/
def configure (level format : Option String) : Except UnknownFormat Sink :=
  let format := format.getD Format.json.name
  match Format.ofName? format with
  | some known => .ok ⟨thresholdOf (level.getD Level.info.name), known⟩
  | none => .error ⟨format⟩

/-- A text with spaces after it up to a width. -/
def padded (width : Nat) (s : String) : String :=
  s ++ String.ofList (List.replicate (width - s.length) ' ')

/-- A text without the spaces at its end. -/
def trimmedEnd (s : String) : String :=
  String.ofList (s.toList.reverse.dropWhile (· = ' ')).reverse

/-! ## Writing -/

/-- A line as it was written. -/
inductive Written where
  | fields (table : Table String Datum)
  | text (s : String)

/-- All fields of a line, with the time of writing as it is shown. -/
def fieldsOf (line : Line) (time : String) : Table String Datum :=
  (((Table.ofList (("component", .text line.component) :: line.fields)).put "event"
    (.text line.event)).put "level" (.text line.level.name)).put "ts" (.text time)

/-- A line for a reader: the level, the event, and the other fields sorted by name. -/
def console (line : Line) (time : String) : String :=
  let fields := fieldsOf line time
  let names := (TextSet.ofList fields.keys).toList.filter fun k => k ≠ "event" && k ≠ "level"
  let shown := names.map fun k => k ++ "=" ++ ((fields.get? k).map Datum.renderBare).getD ""
  trimmedEnd ("[" ++ padded 9 line.level.name ++ "] " ++ padded 30 line.event ++ " " ++
    " ".intercalate shown)

/-- What a sink writes for a line, if it does not drop it. -/
def write? (sink : Sink) (line : Line) (time : String) : Option Written :=
  if line.level.rank < sink.threshold then none
  else match sink.format with
    | .json => some (.fields (fieldsOf line time))
    | .console => some (.text (console line time))

end Sink

end ApiCatalog.Report
