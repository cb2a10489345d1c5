import TextStore.Command.Args
import TextStore.Command.Report
import TextStore.Command.Run
import TextStore.Data.Datum
import TextStore.Data.Json
import TextStore.Data.Script
import TextStore.Data.Settings
import TextStore.Files.Path
import TextStore.Files.Tree
import TextStore.Gap.Basic
import TextStore.Gap.Counters
import TextStore.Gap.Edit
import TextStore.Gap.Layout
import TextStore.Gap.Lines
import TextStore.Gap.Read
import TextStore.Gap.Region
import TextStore.Gap.Search
import TextStore.History.Basic
import TextStore.History.Commit
import TextStore.History.Operation
import TextStore.History.Record
import TextStore.History.Replay
import TextStore.Main
import TextStore.Memory
import TextStore.Proofs.Data.Records
import TextStore.Proofs.Data.RoundTrip
import TextStore.Proofs.Gap.Checked
import TextStore.Proofs.Gap.Contents
import TextStore.Proofs.Gap.Effects
import TextStore.Proofs.Gap.Growth
import TextStore.Proofs.Gap.Lines
import TextStore.Proofs.Gap.Observation
import TextStore.Proofs.Gap.Reads
import TextStore.Proofs.Gap.Refinement
import TextStore.Proofs.Gap.Search
import TextStore.Proofs.Gap.Sizes
import TextStore.Proofs.Gap.Unchanged
import TextStore.Proofs.History.Calls
import TextStore.Proofs.History.Checked
import TextStore.Proofs.History.Coalescing
import TextStore.Proofs.History.Eviction
import TextStore.Proofs.History.Grouping
import TextStore.Proofs.History.Groups
import TextStore.Proofs.History.Numbering
import TextStore.Proofs.History.Outline
import TextStore.Proofs.History.Prediction
import TextStore.Proofs.History.Recorded
import TextStore.Proofs.History.Refinement
import TextStore.Proofs.History.Timeline
import TextStore.Proofs.Script.Atomicity
import TextStore.Proofs.Script.Buffers
import TextStore.Proofs.Script.Current
import TextStore.Proofs.Script.Cursor
import TextStore.Proofs.Script.EmptyEdits
import TextStore.Proofs.Script.Failures
import TextStore.Proofs.Script.Flags
import TextStore.Proofs.Script.Isolation
import TextStore.Proofs.Script.Replay
import TextStore.Proofs.Script.Sizes
import TextStore.Proofs.Store.BufferCalls
import TextStore.Proofs.Store.Cleanup
import TextStore.Proofs.Store.Consistency
import TextStore.Proofs.Store.Edit
import TextStore.Proofs.Store.Flags
import TextStore.Proofs.Store.InStep
import TextStore.Proofs.Store.Ledger
import TextStore.Proofs.Store.Lookup
import TextStore.Proofs.Store.Replay
import TextStore.Proofs.Store.Runs
import TextStore.Proofs.Store.Sizes
import TextStore.Proofs.Store.Snapshots
import TextStore.Proofs.Store.Table
import TextStore.Script.Run
import TextStore.Script.Session
import TextStore.Script.Step
import TextStore.Settings
import TextStore.Snapshot
import TextStore.Store.Basic
import TextStore.Store.Buffer
import TextStore.Store.Edit
import TextStore.Store.Lifecycle
import TextStore.Text.Combining
import TextStore.Text.Printable
import TextStore.Text.Quoted
import TextStore.Text.Utf8
import TextStore.Yaml.Cursor
import TextStore.Yaml.Node
import TextStore.Yaml.Number
import TextStore.Yaml.Scalar
import TextStore.Yaml.Token
import TextStore.Yaml.Value
