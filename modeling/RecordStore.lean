import RecordStore.Binary64
import RecordStore.Binary64.Shortest
import RecordStore.Change
import RecordStore.ChangeList
import RecordStore.Conflict
import RecordStore.Date
import RecordStore.Date.Reader
import RecordStore.Disk
import RecordStore.Disk.Program
import RecordStore.Dispatch
import RecordStore.Failure
import RecordStore.Form
import RecordStore.Header
import RecordStore.Header.Assign
import RecordStore.Header.Schema
import RecordStore.Item
import RecordStore.Journal
import RecordStore.Json
import RecordStore.Json.Display
import RecordStore.Json.Keyed
import RecordStore.Json.Reader
import RecordStore.Json.Writer
import RecordStore.Kind
import RecordStore.Merge
import RecordStore.Merge.Policy
import RecordStore.Path
import RecordStore.Payload
import RecordStore.Payload.Input
import RecordStore.Payload.Load
import RecordStore.Payload.Pages
import RecordStore.Procedure
import RecordStore.Proofs.ActionPage
import RecordStore.Proofs.ChangeList
import RecordStore.Proofs.ChangeList.History
import RecordStore.Proofs.Clean
import RecordStore.Proofs.Codec
import RecordStore.Proofs.Commands
import RecordStore.Proofs.Conflict
import RecordStore.Proofs.Decoding
import RecordStore.Proofs.Deletion
import RecordStore.Proofs.Digits
import RecordStore.Proofs.Disk.Stops
import RecordStore.Proofs.Disk.Tree
import RecordStore.Proofs.FileName
import RecordStore.Proofs.Gap
import RecordStore.Proofs.Header
import RecordStore.Proofs.Item
import RecordStore.Proofs.Json.Ascii
import RecordStore.Proofs.Json.Canonical
import RecordStore.Proofs.Json.Digits
import RecordStore.Proofs.Json.Faults
import RecordStore.Proofs.Json.RoundTrip
import RecordStore.Proofs.Json.Strings
import RecordStore.Proofs.LineBreak
import RecordStore.Proofs.Markup
import RecordStore.Proofs.Merge.AllOrNothing
import RecordStore.Proofs.Merge.Batch
import RecordStore.Proofs.Merge.Failures
import RecordStore.Proofs.Merge.Independent
import RecordStore.Proofs.Merge.KeptChanges
import RecordStore.Proofs.Merge.Order
import RecordStore.Proofs.Merge.Resolve
import RecordStore.Proofs.Merge.Settlement
import RecordStore.Proofs.Merge.Succession
import RecordStore.Proofs.Merge.Symmetry
import RecordStore.Proofs.Merge.ThreeWay
import RecordStore.Proofs.Merge.Total
import RecordStore.Proofs.Merge.Union
import RecordStore.Proofs.Pages
import RecordStore.Proofs.Paragraphs
import RecordStore.Proofs.Payload
import RecordStore.Proofs.Payload.Input
import RecordStore.Proofs.Payload.Load
import RecordStore.Proofs.Procedure
import RecordStore.Proofs.Reachable
import RecordStore.Proofs.Record
import RecordStore.Proofs.RecordName
import RecordStore.Proofs.References
import RecordStore.Proofs.Refinement
import RecordStore.Proofs.Registry
import RecordStore.Proofs.Replacement
import RecordStore.Proofs.Repository.Applied
import RecordStore.Proofs.Repository.Change
import RecordStore.Proofs.Repository.Crash
import RecordStore.Proofs.Repository.Effect
import RecordStore.Proofs.Repository.Faults
import RecordStore.Proofs.Repository.KindChange
import RecordStore.Proofs.Repository.Lookup
import RecordStore.Proofs.Repository.Manifest
import RecordStore.Proofs.Repository.Names
import RecordStore.Proofs.Repository.Records
import RecordStore.Proofs.Repository.Recovery
import RecordStore.Proofs.Repository.Refusal
import RecordStore.Proofs.Repository.Replay
import RecordStore.Proofs.Repository.Sequence
import RecordStore.Proofs.Repository.Staging
import RecordStore.Proofs.Session
import RecordStore.Proofs.Shelf
import RecordStore.Proofs.Stamp
import RecordStore.Proofs.Store
import RecordStore.Proofs.Template.Blocks
import RecordStore.Proofs.Template.Evaluate
import RecordStore.Proofs.Template.Marks
import RecordStore.Proofs.Template.Nested
import RecordStore.Proofs.Template.Order
import RecordStore.Proofs.Template.Passes
import RecordStore.Proofs.Template.Render
import RecordStore.Proofs.Template.Scan
import RecordStore.Proofs.Template.Skeleton
import RecordStore.Proofs.TextOrder
import RecordStore.Proofs.Timestamp
import RecordStore.Proofs.Unchanged
import RecordStore.Proofs.Update
import RecordStore.Proofs.Utf8
import RecordStore.Record
import RecordStore.RecordName
import RecordStore.Registry
import RecordStore.Repository
import RecordStore.Repository.Manifest
import RecordStore.Response
import RecordStore.Session
import RecordStore.Store
import RecordStore.Template
import RecordStore.Template.Bundled
import RecordStore.Template.Part
import RecordStore.Template.Value
import RecordStore.Text
import RecordStore.Text.Blank
import RecordStore.Text.Digit
import RecordStore.Text.Escape
import RecordStore.Text.LineBreak
import RecordStore.Text.Markup
import RecordStore.Text.Printable
import RecordStore.Text.Word
import RecordStore.Timestamp
import RecordStore.Timestamp.Reader
import RecordStore.Utf8
import RecordStore.Utf8.Escaped
import RecordStore.View
