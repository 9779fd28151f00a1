/-
# ApiCatalog.Report.Events -- what happened, as log lines

Indexing, surveying and keeping each speak as a component of their own.  Notes
of requests and fetches are no log lines; they are for `Report.Traffic`.
-/
import ApiCatalog.Keeper.Basic
import ApiCatalog.Report.Line

namespace ApiCatalog

set_option autoImplicit false

open Report

/-- A number as the value of a field. -/
def Report.Datum.count (n : Nat) : Datum := .whole n

/-- A remark of indexing as a log line. -/
def Snapshot.Remark.line : Snapshot.Remark → Line
  | .skipped why =>
    { level := .warning
      component := "discovery.snapshot"
      event := "discovery_group_version_skipped"
      fields := [("group_version", .text why.text), ("error", .text why.message)] }
  | .orphan groupVersion path =>
    { level := .debug
      component := "discovery.snapshot"
      event := "discovery_orphan_subresource"
      fields := [("group_version", .text groupVersion), ("subresource", .text path)] }

/-- A note of a source as a log line, unless it is about a request. -/
def SourceNote.line? {τ : Type} : SourceNote τ → Option Line
  | .asked _ _ | .replied => none
  | .groupsFailed failed listed =>
    some {
      level := .warning
      component := "discovery.source"
      event := "discovery_groups_failed"
      fields := [("failed", .list (failed.toList.map .text)), ("total", .count listed)] }
  | .coreVersionIgnored version =>
    some {
      level := .debug
      component := "discovery.source"
      event := "discovery_core_version_ignored"
      fields := [("group_version", .text version)] }

/-- A line of the keeper. -/
def keeperLine (level : Level) (event : String) (fields : List (String × Datum)) : Line :=
  { level, component := "discovery.resource_map", event, fields }

/-- An event as a log line. -/
def Event.line : Event Float → Line
  | .refreshStarted => keeperLine .debug "discovery_refresh_started" []
  | .refreshFailed why =>
    { keeperLine .error "discovery_refresh_failed" [("error", .text why.message)] with
      withFailure := true }
  | .snapshotPublished groupVersions resources =>
    keeperLine .debug "discovery_snapshot_published"
      [("group_versions", .count groupVersions), ("resources", .count resources)]
  | .startIgnored state =>
    keeperLine .warning "discovery_start_ignored" [("state", .text state.name)]
  | .started interval =>
    keeperLine .info "discovery_started" [("interval_seconds", .real interval)]
  | .stopped => keeperLine .info "discovery_stopped" []
  | .contractViolated why =>
    keeperLine .critical "discovery_contract_violation" [("error", .text why.message)]
  | .refreshCrashed _ =>
    { keeperLine .error "discovery_refresh_crashed" [] with withFailure := true }

/-- A note as a log line, if it is one. -/
def Note.line? : Note Float → Option Line
  | .event e => some e.line
  | .indexing remark => some remark.line
  | .source note => note.line?
  | .fetchStarted | .fetchEnded => none

end ApiCatalog
