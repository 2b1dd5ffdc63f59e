import RedirectMonitor.Activity
import RedirectMonitor.Activity.Surroundings
import RedirectMonitor.Binary64
import RedirectMonitor.Binary64.Decimal
import RedirectMonitor.Bpftool.Command
import RedirectMonitor.Bpftool.Lookup
import RedirectMonitor.Bpftool.Output
import RedirectMonitor.Bpftool.PerCpu
import RedirectMonitor.CommandLine
import RedirectMonitor.CommandLine.Usage
import RedirectMonitor.Counters
import RedirectMonitor.FileTree
import RedirectMonitor.Files
import RedirectMonitor.Group
import RedirectMonitor.Json
import RedirectMonitor.Json.Order
import RedirectMonitor.Json.Reader
import RedirectMonitor.LiveView
import RedirectMonitor.Main
import RedirectMonitor.MapDirectory
import RedirectMonitor.Monitor
import RedirectMonitor.MonitorError
import RedirectMonitor.Notice
import RedirectMonitor.PathName
import RedirectMonitor.PollLoop
import RedirectMonitor.PossibleCpus
import RedirectMonitor.Proofs.AggregateRates
import RedirectMonitor.Proofs.Background
import RedirectMonitor.Proofs.Baseline
import RedirectMonitor.Proofs.Cancellation
import RedirectMonitor.Proofs.Chaining
import RedirectMonitor.Proofs.CollectionAccount
import RedirectMonitor.Proofs.CommandWords
import RedirectMonitor.Proofs.Containment
import RedirectMonitor.Proofs.CoreAttribution
import RedirectMonitor.Proofs.CounterDecoding
import RedirectMonitor.Proofs.Course
import RedirectMonitor.Proofs.CpuCount
import RedirectMonitor.Proofs.CpuLists
import RedirectMonitor.Proofs.Deliveries
import RedirectMonitor.Proofs.EntryDecoding
import RedirectMonitor.Proofs.ExitStatus
import RedirectMonitor.Proofs.FalseResets
import RedirectMonitor.Proofs.Independence
import RedirectMonitor.Proofs.Interleaving
import RedirectMonitor.Proofs.Intervals
import RedirectMonitor.Proofs.JsonLimits
import RedirectMonitor.Proofs.JsonNumbers
import RedirectMonitor.Proofs.JsonProgress
import RedirectMonitor.Proofs.JsonReading
import RedirectMonitor.Proofs.JsonScalars
import RedirectMonitor.Proofs.JsonText
import RedirectMonitor.Proofs.Lifecycle
import RedirectMonitor.Proofs.LiveViewStatus
import RedirectMonitor.Proofs.MapChecks
import RedirectMonitor.Proofs.NewestReport
import RedirectMonitor.Proofs.NormalPaths
import RedirectMonitor.Proofs.Occurrences
import RedirectMonitor.Proofs.Period
import RedirectMonitor.Proofs.Permuted
import RedirectMonitor.Proofs.PositiveNumbers
import RedirectMonitor.Proofs.PrintedCounters
import RedirectMonitor.Proofs.Ranked
import RedirectMonitor.Proofs.RateBounds
import RedirectMonitor.Proofs.RateShares
import RedirectMonitor.Proofs.Refusals
import RedirectMonitor.Proofs.ReportRows
import RedirectMonitor.Proofs.ReportText
import RedirectMonitor.Proofs.Resets
import RedirectMonitor.Proofs.Rounding
import RedirectMonitor.Proofs.RoundingError
import RedirectMonitor.Proofs.RowListing
import RedirectMonitor.Proofs.RowTokens
import RedirectMonitor.Proofs.SettingsWords
import RedirectMonitor.Proofs.Silence
import RedirectMonitor.Proofs.SilentEnds
import RedirectMonitor.Proofs.StableMerge
import RedirectMonitor.Proofs.StableSort
import RedirectMonitor.Proofs.StopRequests
import RedirectMonitor.Proofs.StoreHistory
import RedirectMonitor.Proofs.ThreadEnds
import RedirectMonitor.Proofs.Turns
import RedirectMonitor.Proofs.Utf8Bytes
import RedirectMonitor.Proofs.Utf8Text
import RedirectMonitor.Proofs.WholeNumbers
import RedirectMonitor.Proofs.WholeReports
import RedirectMonitor.Proofs.Words
import RedirectMonitor.Quantity
import RedirectMonitor.Rate
import RedirectMonitor.Refusal
import RedirectMonitor.Rehearsal
import RedirectMonitor.Report
import RedirectMonitor.Report.Lines
import RedirectMonitor.Settings
import RedirectMonitor.Sorting
import RedirectMonitor.Sorting.Merge
import RedirectMonitor.Sorting.Run
import RedirectMonitor.Store
import RedirectMonitor.Switch
import RedirectMonitor.Text.Blank
import RedirectMonitor.Text.Columns
import RedirectMonitor.Text.DecimalDigit
import RedirectMonitor.Text.Numeral
import RedirectMonitor.Text.Printable
import RedirectMonitor.Text.Quoted
import RedirectMonitor.Utf8
import RedirectMonitor.World
