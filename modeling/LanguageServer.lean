import LanguageServer.Advertised
import LanguageServer.Any
import LanguageServer.Catalogue
import LanguageServer.Codec.Basic
import LanguageServer.Codec.Choice
import LanguageServer.Codec.Error
import LanguageServer.Codec.Record
import LanguageServer.Codec.Union
import LanguageServer.Config
import LanguageServer.Decimal.Shortest
import LanguageServer.Dictionary
import LanguageServer.Error
import LanguageServer.Frame.Basic
import LanguageServer.Frame.Header
import LanguageServer.Handler.Activity
import LanguageServer.Handler.Client
import LanguageServer.Handler.Context
import LanguageServer.Handler.Dispatch
import LanguageServer.Handler.Endpoint
import LanguageServer.Handler.Lifecycle
import LanguageServer.Handler.Registry
import LanguageServer.Handler.Run
import LanguageServer.Handler.Trace
import LanguageServer.Json.Basic
import LanguageServer.Json.Fault
import LanguageServer.Json.Number
import LanguageServer.Json.Printer
import LanguageServer.Json.Reader
import LanguageServer.Json.Source
import LanguageServer.Method
import LanguageServer.Operation
import LanguageServer.Proofs.Advertised.Growth
import LanguageServer.Proofs.Advertised.Sections
import LanguageServer.Proofs.Advertised.Served
import LanguageServer.Proofs.Any.Equality
import LanguageServer.Proofs.Codec.Members
import LanguageServer.Proofs.Codec.Rest
import LanguageServer.Proofs.Codec.Tolerance
import LanguageServer.Proofs.Codec.ValueSet
import LanguageServer.Proofs.Frame.Field
import LanguageServer.Proofs.Frame.Grammar
import LanguageServer.Proofs.Frame.Header
import LanguageServer.Proofs.Frame.RoundTrip
import LanguageServer.Proofs.Frame.Stream
import LanguageServer.Proofs.Handler.Dispatch
import LanguageServer.Proofs.Handler.Encoding
import LanguageServer.Proofs.Handler.ErrorCode
import LanguageServer.Proofs.Handler.Failure
import LanguageServer.Proofs.Handler.History
import LanguageServer.Proofs.Handler.Lifecycle
import LanguageServer.Proofs.Handler.Trace
import LanguageServer.Proofs.Narrow
import LanguageServer.Proofs.Protocol.Change
import LanguageServer.Proofs.Protocol.DiagnosticReport
import LanguageServer.Proofs.Protocol.Display
import LanguageServer.Proofs.Protocol.Document
import LanguageServer.Proofs.Protocol.Edit
import LanguageServer.Proofs.Protocol.Initialize
import LanguageServer.Proofs.Protocol.Message
import LanguageServer.Proofs.Protocol.Navigation
import LanguageServer.Proofs.Protocol.Parameters
import LanguageServer.Proofs.Protocol.Properties
import LanguageServer.Proofs.Protocol.Proposal
import LanguageServer.Proofs.Protocol.Symbol
import LanguageServer.Proofs.Server.Accounts
import LanguageServer.Proofs.Server.Answer
import LanguageServer.Proofs.Server.Calls
import LanguageServer.Proofs.Server.Cancellation
import LanguageServer.Proofs.Server.Change
import LanguageServer.Proofs.Server.Delivery
import LanguageServer.Proofs.Server.Effect
import LanguageServer.Proofs.Server.Exchange
import LanguageServer.Proofs.Server.InFlight
import LanguageServer.Proofs.Server.Intake
import LanguageServer.Proofs.Server.Leads
import LanguageServer.Proofs.Server.Order
import LanguageServer.Proofs.Server.Payload
import LanguageServer.Proofs.Server.Plain
import LanguageServer.Proofs.Server.Refinement
import LanguageServer.Proofs.Server.Response
import LanguageServer.Proofs.Server.SessionCalls
import LanguageServer.Proofs.Text.Checked
import LanguageServer.Proofs.Text.Line
import LanguageServer.Proofs.Text.Offset
import LanguageServer.Proofs.Text.Slice
import LanguageServer.Proofs.Text.Utf8
import LanguageServer.Protocol.ClientCapabilities
import LanguageServer.Protocol.CodeAction
import LanguageServer.Protocol.Color
import LanguageServer.Protocol.Command
import LanguageServer.Protocol.Completion
import LanguageServer.Protocol.Diagnostic
import LanguageServer.Protocol.DiagnosticReport
import LanguageServer.Protocol.Document
import LanguageServer.Protocol.DocumentSync
import LanguageServer.Protocol.Edit
import LanguageServer.Protocol.FileOperation
import LanguageServer.Protocol.Folding
import LanguageServer.Protocol.Formatting
import LanguageServer.Protocol.Hierarchy
import LanguageServer.Protocol.Hover
import LanguageServer.Protocol.Identifier
import LanguageServer.Protocol.Initialize
import LanguageServer.Protocol.Inlay
import LanguageServer.Protocol.Link
import LanguageServer.Protocol.Markup
import LanguageServer.Protocol.Message
import LanguageServer.Protocol.Navigation
import LanguageServer.Protocol.Notebook
import LanguageServer.Protocol.Position
import LanguageServer.Protocol.Progress
import LanguageServer.Protocol.Provider
import LanguageServer.Protocol.Registration
import LanguageServer.Protocol.Rename
import LanguageServer.Protocol.SemanticTokens
import LanguageServer.Protocol.ServerCapabilities
import LanguageServer.Protocol.Signature
import LanguageServer.Protocol.Symbol
import LanguageServer.Protocol.Window
import LanguageServer.Protocol.Workspace
import LanguageServer.Server.Calls
import LanguageServer.Server.Connection
import LanguageServer.Server.Conversation
import LanguageServer.Server.Run
import LanguageServer.Server.Schedule
import LanguageServer.Server.Session
import LanguageServer.Server.Work
import LanguageServer.Text.Blank
import LanguageServer.Text.Digits
import LanguageServer.Text.Offset
import LanguageServer.Text.Printable
import LanguageServer.Text.Quoted
import LanguageServer.Text.Utf8
