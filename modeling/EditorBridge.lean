import EditorBridge.Binary64.Basic
import EditorBridge.Fault
import EditorBridge.Numeral
import EditorBridge.Binary64.Scan
import EditorBridge.Binary64.Shortest
import EditorBridge.Command.Basic
import EditorBridge.Json.Basic
import EditorBridge.Text.Hex
import EditorBridge.Json.Source
import EditorBridge.Json.Reader
import EditorBridge.Json.Record
import EditorBridge.Rpc.Message
import EditorBridge.Reply
import EditorBridge.Text.Split
import EditorBridge.Text.Components
import EditorBridge.Text.Letter
import EditorBridge.Text.Utf8
import EditorBridge.Uri.Percent
import EditorBridge.Uri.Host
import EditorBridge.Uri.Locator
import EditorBridge.Uri.Reference
import EditorBridge.Uri.File
import EditorBridge.Server.Place
import EditorBridge.Server.Answer
import EditorBridge.Bridge.Inbound
import EditorBridge.Bridge.Outbound
import EditorBridge.Channel.Exchange
import EditorBridge.Json.Printer
import EditorBridge.Text.Blank
import EditorBridge.Text.Invisible
import EditorBridge.Text.Quoted
import EditorBridge.Rpc.Frame
import EditorBridge.Channel.Outlet
import EditorBridge.Lifecycle
import EditorBridge.Channel.Basic
import EditorBridge.Channel.Inbox
import EditorBridge.Channel.Reader
import EditorBridge.Command.Form
import EditorBridge.CommandLine
import EditorBridge.Settings.Basic
import EditorBridge.Settings.Environment
import EditorBridge.Settings.Client
import EditorBridge.Settings.Path
import EditorBridge.Toml.Scalar
import EditorBridge.Toml.Text
import EditorBridge.Toml.Source
import EditorBridge.Toml.Document
import EditorBridge.Settings.Configuration
import EditorBridge.Settings.Routes
import EditorBridge.Hub.Launch
import EditorBridge.Workspace.Versions
import EditorBridge.Workspace.Basic
import EditorBridge.Roster
import EditorBridge.Subscriptions
import EditorBridge.Hub.Basic
import EditorBridge.Hub.Workspaces
import EditorBridge.Hub.Roster
import EditorBridge.Console.Basic
import EditorBridge.Console.Options
import EditorBridge.Console.Setup
import EditorBridge.Text.Lines
import EditorBridge.Practice.Document
import EditorBridge.Practice.Options
import EditorBridge.Practice.Server
import EditorBridge.Practice.Stream
import EditorBridge.Rehearsal.Basic
import EditorBridge.Rehearsal.Console
import EditorBridge.Main
import EditorBridge.Rehearsal.Queries
import EditorBridge.Settings.Program
import EditorBridge.Proofs.Text.Utf8
import EditorBridge.Proofs.Json.Spelling
import EditorBridge.Proofs.Json.Members
import EditorBridge.Proofs.Json.RoundTrip
import EditorBridge.Proofs.Rpc.Stream
import EditorBridge.Proofs.Channel.Step
import EditorBridge.Proofs.Channel.Registration
import EditorBridge.Proofs.Channel.Traffic
import EditorBridge.Proofs.Channel.Ledger
import EditorBridge.Proofs.Channel.Desk
import EditorBridge.Proofs.Channel.Isolation
import EditorBridge.Proofs.Console.Lines
import EditorBridge.Proofs.Hub.Requests
import EditorBridge.Proofs.Console.Session
import EditorBridge.Proofs.Console.Drain
import EditorBridge.Proofs.Console.Driver
import EditorBridge.Proofs.Console.Performance
import EditorBridge.Proofs.Command.RoundTrip
import EditorBridge.Proofs.Text.Path
import EditorBridge.Proofs.Uri.File
import EditorBridge.Proofs.Bridge.Echo
import EditorBridge.Proofs.Channel.Sorting
import EditorBridge.Proofs.Subscriptions.Table
import EditorBridge.Proofs.Subscriptions.History
import EditorBridge.Proofs.Subscriptions.Dispatch
import EditorBridge.Proofs.Subscriptions.Orderly
import EditorBridge.Proofs.Workspace.Counting
import EditorBridge.Proofs.Workspace.Notices
import EditorBridge.Proofs.Workspace.Spellings
import EditorBridge.Proofs.Workspace.Rush
import EditorBridge.Proofs.Hub.Frames
import EditorBridge.Proofs.Hub.Upkeep
import EditorBridge.Proofs.Hub.Lobby
import EditorBridge.Proofs.Hub.Custody
import EditorBridge.Proofs.Hub.Turns
import EditorBridge.Proofs.Hub.Tenancy
import EditorBridge.Proofs.Hub.Audience
import EditorBridge.Proofs.Hub.Provenance
import EditorBridge.Proofs.Rpc.Padding
import EditorBridge.Proofs.Channel.Reading
import EditorBridge.Proofs.Bridge.Messages
import EditorBridge.Proofs.Bridge.Distinct
import EditorBridge.Proofs.Practice.Edits
import EditorBridge.Proofs.Practice.Mirror
import EditorBridge.Proofs.Rpc.Pieces
import EditorBridge.Proofs.Channel.Pipe
import EditorBridge.Proofs.Channel.Formalities
import EditorBridge.Proofs.Console.Course
import EditorBridge.Proofs.Console.Wire
import EditorBridge.Proofs.Uri.Reference
import EditorBridge.Proofs.Bridge.Reach
import EditorBridge.Proofs.Bridge.Description
import EditorBridge.Proofs.Practice.Pieces
import EditorBridge.Proofs.Hub.Household
import EditorBridge.Proofs.Rpc.Progress
import EditorBridge.Proofs.Subscriptions.Waiting
import EditorBridge.Proofs.Subscriptions.Backlog
import EditorBridge.Proofs.Channel.Delivery
import EditorBridge.Proofs.Uri.Host
import EditorBridge.Proofs.Uri.Authority
import EditorBridge.Proofs.Bridge.Origins
import EditorBridge.Proofs.Json.Forms
import EditorBridge.Proofs.Rpc.Shapes
import EditorBridge.Proofs.Server.Forms
import EditorBridge.Proofs.Bridge.Lists
import EditorBridge.Proofs.Bridge.Definitions
import EditorBridge.Proofs.Workspace.Headroom
import EditorBridge.Proofs.Channel.Lateness
import EditorBridge.Proofs.Settings.Environment
import EditorBridge.Proofs.Settings.Lookup
import EditorBridge.Proofs.Text.Blank
import EditorBridge.Proofs.Settings.Spec
import EditorBridge.Proofs.Settings.Routes
import EditorBridge.Proofs.Console.Routing
import EditorBridge.Proofs.Hub.Books
import EditorBridge.Proofs.Hub.Relief
import EditorBridge.Proofs.Hub.Finality
import EditorBridge.Proofs.Channel.Lifespan
import EditorBridge.Proofs.Channel.Course
import EditorBridge.Proofs.Practice.References
import EditorBridge.Proofs.Practice.Exits
import EditorBridge.Proofs.Practice.Reckoning
