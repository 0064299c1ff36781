import RoomLedger.Collection.Basic
import RoomLedger.Collection.Failure
import RoomLedger.Collection.Lines
import RoomLedger.Collection.Query
import RoomLedger.CommandLine.Command
import RoomLedger.CommandLine.Execution
import RoomLedger.CommandLine.Grammar
import RoomLedger.CommandLine.Reading
import RoomLedger.CommandLine.Style
import RoomLedger.Decimal.Binary64
import RoomLedger.Decimal.Digits
import RoomLedger.Decimal.Power
import RoomLedger.Decimal.Shortest
import RoomLedger.Digest.Blake3
import RoomLedger.Disk.Basic
import RoomLedger.Disk.Path
import RoomLedger.Disk.Script
import RoomLedger.Index
import RoomLedger.Json.Fault
import RoomLedger.Json.Numeral
import RoomLedger.Json.Reader
import RoomLedger.Json.StringText
import RoomLedger.Json.Token
import RoomLedger.Main
import RoomLedger.Proofs.Collection.Arrangement
import RoomLedger.Proofs.Collection.Canonical
import RoomLedger.Proofs.Collection.Changes
import RoomLedger.Proofs.Collection.Committal
import RoomLedger.Proofs.Collection.Concatenation
import RoomLedger.Proofs.Collection.Concurrency
import RoomLedger.Proofs.Collection.Dictionary
import RoomLedger.Proofs.Collection.Effects
import RoomLedger.Proofs.Collection.Finding
import RoomLedger.Proofs.Collection.Framing
import RoomLedger.Proofs.Collection.Handwritten
import RoomLedger.Proofs.Collection.Independence
import RoomLedger.Proofs.Collection.Indifference
import RoomLedger.Proofs.Collection.Keyed
import RoomLedger.Proofs.Collection.Loading
import RoomLedger.Proofs.Collection.Ordering
import RoomLedger.Proofs.Collection.Protocol
import RoomLedger.Proofs.Collection.Race
import RoomLedger.Proofs.Collection.Request
import RoomLedger.Proofs.Collection.RoundTrip
import RoomLedger.Proofs.Collection.Selection
import RoomLedger.Proofs.Collection.Undecodable
import RoomLedger.Proofs.CommandLine.Authority
import RoomLedger.Proofs.CommandLine.Course
import RoomLedger.Proofs.CommandLine.Creators
import RoomLedger.Proofs.CommandLine.Edits
import RoomLedger.Proofs.CommandLine.Listings
import RoomLedger.Proofs.Disk.Growth
import RoomLedger.Proofs.Disk.Root
import RoomLedger.Proofs.Disk.Walk
import RoomLedger.Proofs.Json.Characters
import RoomLedger.Proofs.Json.Grammar
import RoomLedger.Proofs.Json.Numerals
import RoomLedger.Proofs.Json.Shape
import RoomLedger.Proofs.Json.Strings
import RoomLedger.Proofs.Json.Trailing
import RoomLedger.Proofs.Record.Accounted
import RoomLedger.Proofs.Record.Amended
import RoomLedger.Proofs.Record.Events
import RoomLedger.Proofs.Record.Objects
import RoomLedger.Proofs.Record.Timestamps
import RoomLedger.Proofs.Record.Values
import RoomLedger.Proofs.Service.Accounts
import RoomLedger.Proofs.Service.Admission
import RoomLedger.Proofs.Service.Balance
import RoomLedger.Proofs.Service.Ledgers
import RoomLedger.Proofs.Service.Memberships
import RoomLedger.Proofs.Service.Newest
import RoomLedger.Proofs.Service.Provenance
import RoomLedger.Proofs.Service.RoomNames
import RoomLedger.Proofs.Service.Rooms
import RoomLedger.Proofs.Service.Views
import RoomLedger.Proofs.Store.Alone
import RoomLedger.Proofs.Store.Bystanders
import RoomLedger.Proofs.Store.Companions
import RoomLedger.Proofs.Store.Contest
import RoomLedger.Proofs.Store.Conversation
import RoomLedger.Proofs.Store.Damaged
import RoomLedger.Proofs.Store.FileFormat
import RoomLedger.Proofs.Store.Footprint
import RoomLedger.Proofs.Store.History
import RoomLedger.Proofs.Store.Inventory
import RoomLedger.Proofs.Store.Key
import RoomLedger.Proofs.Store.KeyFiles
import RoomLedger.Proofs.Store.KeyForm
import RoomLedger.Proofs.Store.Layout
import RoomLedger.Proofs.Store.Neighbours
import RoomLedger.Proofs.Store.Once
import RoomLedger.Proofs.Store.Opening
import RoomLedger.Proofs.Store.Publication
import RoomLedger.Proofs.Store.Refinement
import RoomLedger.Proofs.Store.Remains
import RoomLedger.Proofs.Store.Requests
import RoomLedger.Proofs.Store.Serial
import RoomLedger.Proofs.Store.Sparing
import RoomLedger.Proofs.Store.Tally
import RoomLedger.Proofs.Store.Transaction
import RoomLedger.Proofs.Store.Unwritten
import RoomLedger.Proofs.Store.Writing
import RoomLedger.Proofs.Text.ByteOrder
import RoomLedger.Proofs.Text.Trimming
import RoomLedger.Proofs.Time.Elapsed
import RoomLedger.Proofs.Time.Reading
import RoomLedger.Proofs.Time.Scanning
import RoomLedger.Proofs.Time.Strictness
import RoomLedger.Record.Basic
import RoomLedger.Record.Event
import RoomLedger.Record.Field
import RoomLedger.Record.GroupMember
import RoomLedger.Record.HistoryEntry
import RoomLedger.Record.Identifier
import RoomLedger.Record.MediaItem
import RoomLedger.Record.Role
import RoomLedger.Record.Schema
import RoomLedger.Record.UserProfile
import RoomLedger.Service.Events
import RoomLedger.Service.Groups
import RoomLedger.Service.Histories
import RoomLedger.Service.Media
import RoomLedger.Service.Profiles
import RoomLedger.Settings.Basic
import RoomLedger.Settings.Toml
import RoomLedger.Store.Basic
import RoomLedger.Store.Conformance
import RoomLedger.Store.Crowd
import RoomLedger.Store.Error
import RoomLedger.Store.FileFormat
import RoomLedger.Store.Files
import RoomLedger.Store.Generation
import RoomLedger.Store.Interference
import RoomLedger.Store.Key
import RoomLedger.Store.Memory
import RoomLedger.Store.Plan
import RoomLedger.Text.Blank
import RoomLedger.Text.Bytes
import RoomLedger.Text.Hex
import RoomLedger.Text.Pieces
import RoomLedger.Text.Quoted
import RoomLedger.Text.Visible
import RoomLedger.Time.Clock
import RoomLedger.Time.Date
import RoomLedger.Time.Printer
import RoomLedger.Time.Relaxed
import RoomLedger.Time.Scan
import RoomLedger.Time.Strict
import RoomLedger.Time.Timestamp
