/-
# ApiCatalog.Report.Traffic -- how much was going on at once

Traffic is read off the notes in order: something opens, and later it closes.
`Traffic.fetches` follows the fetches of a keeper and `Traffic.requests` the
single requests of its source.
-/
import ApiCatalog.Keeper.Basic

namespace ApiCatalog.Report

set_option autoImplicit false

/-- What is open now, and the most that was open at once. -/
structure Traffic where
  running : Nat := 0
  peak : Nat := 0
deriving DecidableEq, Repr

/-- A change of traffic. -/
inductive Traffic.Change where
  | opened
  | closed
  | other
deriving DecidableEq, Repr

namespace Traffic

/-- The traffic after a change. -/
def after (t : Traffic) : Change → Traffic
  | .opened => ⟨t.running + 1, max t.peak (t.running + 1)⟩
  | .closed => ⟨t.running - 1, t.peak⟩
  | .other => t

/-- The traffic after all changes. -/
def ofChanges (changes : List Change) : Traffic := changes.foldl after {}

variable {τ : Type}

/-- What a note means for the traffic of fetches. -/
def fetchChange : Note τ → Change
  | .fetchStarted => .opened
  | .fetchEnded => .closed
  | _ => .other

/-- What a note means for the traffic of requests. -/
def requestChange : Note τ → Change
  | .source (.asked _ _) => .opened
  | .source .replied => .closed
  | _ => .other

/-- The traffic of fetches. -/
def fetches (journal : List (Note τ)) : Traffic := ofChanges (journal.map fetchChange)

/-- The traffic of single requests. -/
def requests (journal : List (Note τ)) : Traffic := ofChanges (journal.map requestChange)

end Traffic

end ApiCatalog.Report
