import ZuTalk.Library.Checks
import ZuTalk.Library.Machine
import ZuTalk.Library.Text
import ZuTalk.Library.Tiling
import ZuTalk.Library.Rows
import ZuTalk.Library.Edits
import ZuTalk.Stream.Recovery
import ZuTalk.Stream.Lane
import ZuTalk.Stream.Suppression
import ZuTalk.Stream.Session
import ZuTalk.Stream.Run
import ZuTalk.Stream.Moves
import ZuTalk.Stream.Timeline
import ZuTalk.Stream.Trimming
import ZuTalk.Stream.FinalizeClock
import ZuTalk.Stream.Conservation
import ZuTalk.Stream.LiveEdge
import ZuTalk.Text.Script
import ZuTalk.Text.Provider
import ZuTalk.Library.Groups
import ZuTalk.Text.Normalized
import ZuTalk.Capture.Utterance
import ZuTalk.Capture.Follows
import ZuTalk.Capture.Repair
import ZuTalk.Capture.Segment
import ZuTalk.Capture.Assembler
import ZuTalk.Capture.Commits
import ZuTalk.Capture.Transcript
import ZuTalk.Mirror.Value
import ZuTalk.Mirror.Schema
import ZuTalk.Library.Moves
import ZuTalk.Mirror.Change
import ZuTalk.Mirror.Document
import ZuTalk.Mirror.Lis
import ZuTalk.Mirror.Diff
import ZuTalk.Mirror.Apply
import ZuTalk.Mirror.Write
import ZuTalk.Mirror.Reorder
import ZuTalk.Mirror.Failure
import ZuTalk.Mirror.Patch
import ZuTalk.Library.Entries
import ZuTalk.Mirror.Written
import ZuTalk.Mirror.Fields
import ZuTalk.Mirror.ListPlan
import ZuTalk.Mirror.Keyed
import ZuTalk.Mirror.Committed
import ZuTalk.Capture.Event
import ZuTalk.Capture.Client
import ZuTalk.Capture.Coalesce
import ZuTalk.Capture.Mailbox
import ZuTalk.Recorder.Fanout
import ZuTalk.Recorder.Lanes
import ZuTalk.Library.Cuts
import ZuTalk.Recorder.Journal
import ZuTalk.Recorder.Recovered
import ZuTalk.Library.Table
import ZuTalk.Tasks.Queue
import ZuTalk.Tasks.LifeCycle
import ZuTalk.Recorder.Collector
import ZuTalk.Recorder.Forward
import ZuTalk.Recorder.Generations
import ZuTalk.Recorder.Plan
import ZuTalk.Invite.Store
import ZuTalk.Invite.Ledger
import ZuTalk.Library.Intervals
import ZuTalk.Invite.Streams
import ZuTalk.Invite.Bounds
import ZuTalk.Invite.Ceiling
import ZuTalk.Sync.Connections
import ZuTalk.Sync.OneConnection
import ZuTalk.Library.Pull
import ZuTalk.Sync.Link
import ZuTalk.Sync.Pulls
import ZuTalk.Sync.Announced
import ZuTalk.Sync.Synced
import ZuTalk.Library.Hex
import ZuTalk.Library.History
import ZuTalk.Members.Roster
import ZuTalk.Members.Space
import ZuTalk.Members.Removal
import ZuTalk.Caches.Replica
import ZuTalk.Caches.Stored
import ZuTalk.Tombstones.Replica
import ZuTalk.Tombstones.Final
import ZuTalk.Library.Ordered
import ZuTalk.Library.Registers
import ZuTalk.Rooms.Room
import ZuTalk.Rooms.Page
import ZuTalk.Rooms.Viewers
import ZuTalk.Rooms.Shown
import ZuTalk.Rooms.Service
import ZuTalk.Rooms.Closed
import ZuTalk.Library.Slots
import ZuTalk.Links.Publisher
import ZuTalk.Links.Latest
import ZuTalk.Links.Calls
import ZuTalk.Links.Handled
import ZuTalk.Packs.Snapshot
import ZuTalk.Packs.WriteOnce
import ZuTalk.Inbox.Candidates
import ZuTalk.Inbox.Placement
import ZuTalk.Library.Containers
import ZuTalk.Guard.Admission
import ZuTalk.Guard.Evidence
import ZuTalk.Transcripts.Block
import ZuTalk.Transcripts.Schema
import ZuTalk.Transcripts.Projection
import ZuTalk.Transcripts.Document
import ZuTalk.Transcripts.Opened
import ZuTalk.Transcripts.Facade
import ZuTalk.Transcripts.Runs
import ZuTalk.Transcripts.Slices
import ZuTalk.Transcripts.Deletion
import ZuTalk.Transcripts.SessionMove
import ZuTalk.Transcripts.SessionMoved
import ZuTalk.Replay.Lines
import ZuTalk.Replay.Writer
import ZuTalk.Replay.Migration
import ZuTalk.Notes.Outline
import ZuTalk.Library.Stretches
import ZuTalk.Marks.Reach
import ZuTalk.Library.Csv
import ZuTalk.Packs.TranslationCsv
import ZuTalk.Export.Facts
import ZuTalk.Export.Formats
import ZuTalk.Export.Subtitles
import ZuTalk.Library.Sections
import ZuTalk.Library.Selection
import ZuTalk.Packs.Compile
import ZuTalk.Packs.Receipt
import ZuTalk.Rooms.Restart
import ZuTalk.Library.Bisect
import ZuTalk.Library.Checkpoints
import ZuTalk.Capture.AudienceFold
import ZuTalk.Capture.StoredRows
import ZuTalk.Capture.Derived
import ZuTalk.Mirror.Positional
import ZuTalk.Library.Reading
import ZuTalk.Crypto.DecryptReader
import ZuTalk.Library.Transactions
import ZuTalk.Lanes.Language
import ZuTalk.Lanes.Row
import ZuTalk.Lanes.Store
import ZuTalk.Lanes.Writer
import ZuTalk.Lanes.Binding
import ZuTalk.Lanes.Operations
import ZuTalk.Lanes.Writes
import ZuTalk.Lanes.Effects
import ZuTalk.Lanes.Origins
import ZuTalk.Lanes.Calls
import ZuTalk.Lanes.System
import ZuTalk.Lanes.Owned
import ZuTalk.Lanes.Goes
import ZuTalk.Lanes.Rows
import ZuTalk.Lanes.Receipts
import ZuTalk.Lanes.Bound
import ZuTalk.Lanes.Corrections
import ZuTalk.Lanes.Sources
import ZuTalk.Lanes.Edits
import ZuTalk.Lanes.Speakers
import ZuTalk.Lanes.Replay
import ZuTalk.Lanes.Waiting
import ZuTalk.Lanes.Composition
import ZuTalk.Lanes.Captures
import ZuTalk.Lanes.Purge
