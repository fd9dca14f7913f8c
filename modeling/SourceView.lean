import SourceView.Api.Backends
import SourceView.Api.Blame
import SourceView.Api.Error
import SourceView.Api.Search
import SourceView.Blame.Basic
import SourceView.Blame.Row
import SourceView.Blame.Segment
import SourceView.Config.BackendList
import SourceView.Config.Basic
import SourceView.Config.Directory
import SourceView.Config.Environment
import SourceView.Config.File
import SourceView.Connection.Client
import SourceView.Connection.Pipe
import SourceView.History.Basic
import SourceView.History.Log
import SourceView.Instant
import SourceView.Json.Basic
import SourceView.Json.Binary64
import SourceView.Json.Meaning
import SourceView.Json.Record
import SourceView.Json.Token
import SourceView.Json.Written
import SourceView.Load.Files
import SourceView.Load.GitLog
import SourceView.Load.History
import SourceView.Load.StripCommand
import SourceView.Main
import SourceView.Message.Backend
import SourceView.Message.Browser
import SourceView.Message.Envelope
import SourceView.NameMap
import SourceView.Network.Action
import SourceView.Network.Basic
import SourceView.Network.Report
import SourceView.Network.Run
import SourceView.Pool.Basic
import SourceView.Pool.Directory
import SourceView.Proofs.Blame.Tracking
import SourceView.Query.Basic
import SourceView.Query.Parser
import SourceView.Query.Word
import SourceView.Repository.Basic
import SourceView.Session.Basic
import SourceView.Text.Blank
import SourceView.Text.Decimal
import SourceView.Text.Hidden
import SourceView.Text.Lines
import SourceView.Text.Quoted
import SourceView.Text.Split
import SourceView.Text.Utf8
import SourceView.Proofs.History.Built
import SourceView.Proofs.History.Order
import SourceView.Proofs.Blame.Queries
import SourceView.Proofs.Blame.Attribution
import SourceView.Proofs.Session.FrameOrder
import SourceView.Proofs.Pool.Circulation
import SourceView.Proofs.Pool.Conservation
import SourceView.Proofs.Session.Fates
import SourceView.Proofs.Session.Repetitions
import SourceView.Proofs.Connection.Reading
import SourceView.Proofs.Session.Service
import SourceView.Proofs.Session.Results
import SourceView.Proofs.Session.Delivery
import SourceView.Proofs.Text.Utf8
import SourceView.Proofs.Text.Decimal
import SourceView.Proofs.Text.Lines
import SourceView.Proofs.Log.Lines
import SourceView.Proofs.Log.Records
import SourceView.Proofs.Log.Stripping
import SourceView.Proofs.Log.Restripping
import SourceView.Proofs.Log.FullLogs
import SourceView.Proofs.Log.Headings
import SourceView.Proofs.NameMap
import SourceView.Proofs.Json.Tokens
import SourceView.Proofs.Json.Trees
import SourceView.Proofs.Message.Bodies
import SourceView.Proofs.Message.Streams
import SourceView.Proofs.Connection.Conversation
import SourceView.Proofs.Connection.Greetings
import SourceView.Proofs.Connection.Exchanges
import SourceView.Proofs.Connection.ReadAhead
import SourceView.Proofs.Connection.Fidelity
import SourceView.Proofs.Connection.Endings
import SourceView.Proofs.Pool.Tasks
import SourceView.Proofs.Pool.Commons
import SourceView.Proofs.Pool.Orderly
import SourceView.Proofs.Pool.Answers
import SourceView.Proofs.Pool.Custody
import SourceView.Proofs.Page.Rows
import SourceView.Proofs.Page.CommitPages
import SourceView.Proofs.Page.Changes
import SourceView.Proofs.Blame.Reversal
import SourceView.Proofs.Blame.Walk
import SourceView.Proofs.Pool.Closing
import SourceView.Proofs.Text.Blank
import SourceView.Proofs.Query.Words
import SourceView.Proofs.Query.Grammar
import SourceView.Proofs.Query.Terms
import SourceView.Proofs.Session.IgnoredSearches
import SourceView.Proofs.Blame.Views
import SourceView.Proofs.History.Indexes
import SourceView.Proofs.Blame.InForce
import SourceView.Proofs.Pool.Turns
import SourceView.Proofs.Pool.Places
import SourceView.Proofs.Pool.Losses
import SourceView.Proofs.Session.Errands
import SourceView.Proofs.Session.Tenancy
import SourceView.Proofs.Session.Leases
import SourceView.Proofs.Load.Files
import SourceView.Proofs.Load.Cache
import SourceView.Proofs.Query.Escapes
import SourceView.Proofs.Outcome
import SourceView.Proofs.Config.Acceptance
import SourceView.Proofs.Config.Reachability
import SourceView.Proofs.Repository.Revisions
import SourceView.Proofs.Page.Versions
import SourceView.Proofs.Session.Slots
import SourceView.Proofs.Pool.Redials
import SourceView.Proofs.Blame.Words
import SourceView.Proofs.Blame.WordReplays
import SourceView.Proofs.Page.WordRows
