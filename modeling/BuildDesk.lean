import BuildDesk.Calendar
import BuildDesk.Command.Action
import BuildDesk.Command.Build
import BuildDesk.Command.Jobs
import BuildDesk.Command.List
import BuildDesk.Command.Operate
import BuildDesk.Command.Status
import BuildDesk.Command.Target
import BuildDesk.Command.Wait
import BuildDesk.CommandLine.Options
import BuildDesk.CommandLine.Request
import BuildDesk.CommandLine.Run
import BuildDesk.Console.ColorTable
import BuildDesk.Console.Literal
import BuildDesk.Console.Markup
import BuildDesk.Console.Output
import BuildDesk.Console.Prompt
import BuildDesk.Console.Style
import BuildDesk.Console.Transcript
import BuildDesk.Fault
import BuildDesk.Flow.Basic
import BuildDesk.Flow.Browse
import BuildDesk.Flow.Check
import BuildDesk.Flow.FollowUp
import BuildDesk.Flow.Prepare.Context
import BuildDesk.Flow.Prepare.Handlers
import BuildDesk.Flow.Prepare.Table
import BuildDesk.Flow.Question
import BuildDesk.Flow.Review
import BuildDesk.Flow.Run
import BuildDesk.Folder
import BuildDesk.Job
import BuildDesk.Json.Basic
import BuildDesk.Json.Display
import BuildDesk.Json.Order
import BuildDesk.Json.Printer
import BuildDesk.Json.Reader
import BuildDesk.Main
import BuildDesk.Message.Catalog
import BuildDesk.Message.Dialog
import BuildDesk.Message.Facet
import BuildDesk.Message.Kind
import BuildDesk.Message.Layout
import BuildDesk.Message.Notice
import BuildDesk.Message.Template
import BuildDesk.Message.Wording
import BuildDesk.Number.Decompose
import BuildDesk.Number.Quantity
import BuildDesk.Number.Rounded
import BuildDesk.Number.Shortest
import BuildDesk.Report.Duration
import BuildDesk.Report.Status
import BuildDesk.Roster.Basic
import BuildDesk.Roster.Branches
import BuildDesk.Roster.Recent
import BuildDesk.Roster.Refresh
import BuildDesk.Search.Rank
import BuildDesk.Search.Resolve
import BuildDesk.Search.Similarity
import BuildDesk.Server.Access
import BuildDesk.Server.Build
import BuildDesk.Server.Client
import BuildDesk.Server.Listing
import BuildDesk.Session
import BuildDesk.Session.Script
import BuildDesk.Settings
import BuildDesk.Text.Blank
import BuildDesk.Text.Case
import BuildDesk.Text.CaseTable
import BuildDesk.Text.Digit
import BuildDesk.Text.Distinct
import BuildDesk.Text.Letter
import BuildDesk.Text.LetterTable
import BuildDesk.Text.Order
import BuildDesk.Text.PrintableTable
import BuildDesk.Text.Quoted
import BuildDesk.Text.Surrogate
import BuildDesk.Text.Width
import BuildDesk.Text.WidthTable
import BuildDesk.Text.Words
import BuildDesk.Url
import BuildDesk.Proofs.Flow.Reach
import BuildDesk.Proofs.Flow.Checked
import BuildDesk.Proofs.Frame
import BuildDesk.Proofs.Flow.Handler
import BuildDesk.Proofs.Json.Entries
import BuildDesk.Proofs.Search.Found
import BuildDesk.Proofs.Command.Shape
import BuildDesk.Proofs.Flow.Agree
import BuildDesk.Proofs.Prepare.Alike
import BuildDesk.Proofs.Prepare.Reselection
import BuildDesk.Proofs.Prepare.Offered
import BuildDesk.Proofs.Session.Since
import BuildDesk.Proofs.Session.Fair
import BuildDesk.Proofs.Ordinary
import BuildDesk.Proofs.Json.RoundTrip
import BuildDesk.Proofs.Roster.RoundTrip
import BuildDesk.Proofs.Roster.Reread
import BuildDesk.Proofs.Fair.Parts
import BuildDesk.Proofs.Flow.Shallow
import BuildDesk.Proofs.Flow.Fair
import BuildDesk.Proofs.Fair.Tables
import BuildDesk.Proofs.Fair.Commands
import BuildDesk.Proofs.Command.Reliable
import BuildDesk.Proofs.Command.Placing
import BuildDesk.Proofs.Command.Deeds
import BuildDesk.Proofs.Command.Triggers
import BuildDesk.Proofs.Text.Distinct
import BuildDesk.Proofs.Text.Latest
import BuildDesk.Proofs.Json.Mentions
import BuildDesk.Proofs.Json.Numeral
import BuildDesk.Proofs.Json.Shape
import BuildDesk.Proofs.Server.Listed
import BuildDesk.Proofs.Server.Traffic
import BuildDesk.Proofs.Server.Crumb
import BuildDesk.Proofs.Roster.Standing
import BuildDesk.Proofs.Roster.Change
import BuildDesk.Proofs.Roster.Histories
import BuildDesk.Proofs.Roster.Relisting
import BuildDesk.Proofs.Roster.Recency
import BuildDesk.Proofs.Roster.Memory
import BuildDesk.Proofs.Roster.Reading
import BuildDesk.Proofs.Roster.Recorded
import BuildDesk.Proofs.Command.Remembering
import BuildDesk.Proofs.Command.Recording
import BuildDesk.Proofs.Text.Spelling
import BuildDesk.Proofs.Roster.Offered
import BuildDesk.Proofs.Roster.Defaults
import BuildDesk.Proofs.Search.Ranking
import BuildDesk.Proofs.Search.Words
import BuildDesk.Proofs.Search.Orderless
import BuildDesk.Proofs.Search.Head
import BuildDesk.Proofs.Search.Tiers
import BuildDesk.Proofs.Command.Finding
import BuildDesk.Proofs.Session.Aside
import BuildDesk.Proofs.Aside.Parts
import BuildDesk.Proofs.Aside.Flows
import BuildDesk.Proofs.Aside.Commands
import BuildDesk.Proofs.Session.Undisturbed
import BuildDesk.Proofs.Command.ByAddress
import BuildDesk.Proofs.Command.Polling
import BuildDesk.Proofs.Command.Waiting
import BuildDesk.Proofs.Flow.Homing
import BuildDesk.Proofs.Flow.Confirmed
import BuildDesk.Proofs.Command.Browsing
import BuildDesk.Proofs.Command.Departure
import BuildDesk.Proofs.Flow.Shown
import BuildDesk.Proofs.Flow.Cancelled
import BuildDesk.Proofs.Command.Escaping
import BuildDesk.Proofs.Command.Acting
import BuildDesk.Proofs.Command.Nested
import BuildDesk.Proofs.Command.Picking
import BuildDesk.Proofs.Message.Filling
import BuildDesk.Proofs.Console.Tags
import BuildDesk.Proofs.Session.Course
import BuildDesk.Proofs.Server.Courses
import BuildDesk.Proofs.Server.Legible
import BuildDesk.Proofs.Server.Reported
import BuildDesk.Proofs.Session.Language
import BuildDesk.Proofs.Command.Consent
import BuildDesk.Proofs.Language.Parts
import BuildDesk.Proofs.Language.Flows
import BuildDesk.Proofs.Language.Commands
import BuildDesk.Proofs.Language.Agreement
import BuildDesk.Proofs.Command.Stopping
import BuildDesk.Proofs.Command.Unattended
import BuildDesk.Proofs.Command.Watching
import BuildDesk.Proofs.Command.FollowingUp
import BuildDesk.Proofs.Command.Reporting
import BuildDesk.Proofs.Search.Further
import BuildDesk.Proofs.Server.Leaves
import BuildDesk.Proofs.Command.Durations
import BuildDesk.Proofs.Command.Labels
import BuildDesk.Proofs.Url.Normal
import BuildDesk.Proofs.Message.Verbatim
import BuildDesk.Proofs.Settings.Sources
import BuildDesk.Proofs.Roster.Writing
