/-
# ApiCatalog.Meters -- counting and timing refreshes

Gauges show the snapshot that is published and are unset before the first one.
Counters count refreshes by what became of them.  Every refresh is timed, so
the durations are kept in order; the histogram is read off them.
-/
import ApiCatalog.Timeline

namespace ApiCatalog

set_option autoImplicit false

/-- What is measured. -/
structure Meters (τ : Type) where
  /-- The group-versions of the published snapshot. -/
  groupVersions : Option Nat := none
  /-- The resource types of the published snapshot. -/
  resources : Option Nat := none
  /-- One as soon as a snapshot is published. -/
  synced : Option Nat := none
  /-- When the fetch of the published snapshot started. -/
  lastSuccess : Option τ := none
  successes : Nat := 0
  failures : Nat := 0
  breaches : Nat := 0
  durations : List τ := []

namespace Meters

variable {τ : Type} [Clock τ]

/-- The sum of all durations, added in order. -/
def total (m : Meters τ) : τ := m.durations.foldl (· + ·) 0

/-- How many refreshes took no longer than a bound. -/
def within (m : Meters τ) (bound : τ) : Nat :=
  m.durations.countP fun duration => !decide (bound < duration)

end Meters

/-- The bounds of the histogram, in seconds. -/
def Meters.bounds : List Float := [0.05, 0.1, 0.25, 0.5, 1.0, 2.5, 5.0, 10.0, 30.0]

end ApiCatalog
