import ApiCatalog.Cluster
import ApiCatalog.Decimal.Digit
import ApiCatalog.Decimal.Layout
import ApiCatalog.Decimal.Numeral
import ApiCatalog.Decimal.Shortest
import ApiCatalog.Descriptor
import ApiCatalog.Failure
import ApiCatalog.GroupVersion
import ApiCatalog.GroupVersion.Parser
import ApiCatalog.Identifier
import ApiCatalog.Keeper
import ApiCatalog.Keeper.Basic
import ApiCatalog.Keeper.Refresh
import ApiCatalog.Meters
import ApiCatalog.Proofs.Accounts
import ApiCatalog.Proofs.AfterStop
import ApiCatalog.Proofs.AllOrNothing
import ApiCatalog.Proofs.Answering
import ApiCatalog.Proofs.Balance
import ApiCatalog.Proofs.Books
import ApiCatalog.Proofs.Bounds
import ApiCatalog.Proofs.Cadence
import ApiCatalog.Proofs.Classified
import ApiCatalog.Proofs.Clocks
import ApiCatalog.Proofs.Completion
import ApiCatalog.Proofs.Core
import ApiCatalog.Proofs.Deeds
import ApiCatalog.Proofs.Descriptors
import ApiCatalog.Proofs.Desk
import ApiCatalog.Proofs.Discipline
import ApiCatalog.Proofs.EntryIndex
import ApiCatalog.Proofs.Environments
import ApiCatalog.Proofs.Fetches
import ApiCatalog.Proofs.FirstSync
import ApiCatalog.Proofs.Floats
import ApiCatalog.Proofs.Gauges
import ApiCatalog.Proofs.Grammar
import ApiCatalog.Proofs.GroupVersions
import ApiCatalog.Proofs.Handover
import ApiCatalog.Proofs.Helm
import ApiCatalog.Proofs.Identifiers
import ApiCatalog.Proofs.InFlight
import ApiCatalog.Proofs.Indexing
import ApiCatalog.Proofs.KindIndex
import ApiCatalog.Proofs.LastError
import ApiCatalog.Proofs.Ledger
import ApiCatalog.Proofs.Leniency
import ApiCatalog.Proofs.Lifecycle
import ApiCatalog.Proofs.Linearizable
import ApiCatalog.Proofs.Moments
import ApiCatalog.Proofs.Moves
import ApiCatalog.Proofs.Numerals
import ApiCatalog.Proofs.Order
import ApiCatalog.Proofs.Outcomes
import ApiCatalog.Proofs.Overlay
import ApiCatalog.Proofs.PromptRuns
import ApiCatalog.Proofs.PromptSteering
import ApiCatalog.Proofs.Published
import ApiCatalog.Proofs.Reordering
import ApiCatalog.Proofs.Requests
import ApiCatalog.Proofs.Runs
import ApiCatalog.Proofs.Schedule
import ApiCatalog.Proofs.Serial
import ApiCatalog.Proofs.Settling
import ApiCatalog.Proofs.Steered
import ApiCatalog.Proofs.Steering
import ApiCatalog.Proofs.Stopping
import ApiCatalog.Proofs.Strictness
import ApiCatalog.Proofs.Summons
import ApiCatalog.Proofs.Surveys
import ApiCatalog.Proofs.Survival
import ApiCatalog.Proofs.Tables
import ApiCatalog.Proofs.Tidy
import ApiCatalog.Proofs.Times
import ApiCatalog.Proofs.Timing
import ApiCatalog.Record
import ApiCatalog.Report.Datum
import ApiCatalog.Report.Events
import ApiCatalog.Report.Line
import ApiCatalog.Report.Sink
import ApiCatalog.Report.Traffic
import ApiCatalog.Settings
import ApiCatalog.Snapshot
import ApiCatalog.Snapshot.Entry
import ApiCatalog.Source
import ApiCatalog.Survey
import ApiCatalog.Table
import ApiCatalog.Text.Blank
import ApiCatalog.Text.Case
import ApiCatalog.Text.Cut
import ApiCatalog.Text.Printable
import ApiCatalog.Text.Quoted
import ApiCatalog.Text.Ranges
import ApiCatalog.TextSet
import ApiCatalog.Timeline
