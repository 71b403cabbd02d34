import PdfWorker.Capture
import PdfWorker.Capture.Drain
import PdfWorker.Capture.ErrorStream
import PdfWorker.Capture.Scripted
import PdfWorker.CommandLine
import PdfWorker.Conversion
import PdfWorker.Diagnostic
import PdfWorker.Diagnostic.LogLine
import PdfWorker.Engine
import PdfWorker.Engine.Scripted
import PdfWorker.EngineError
import PdfWorker.Environment
import PdfWorker.Fault
import PdfWorker.FileTree
import PdfWorker.Json.Basic
import PdfWorker.Json.Number
import PdfWorker.Json.Parser
import PdfWorker.Json.Printer
import PdfWorker.Json.Record
import PdfWorker.Json.Selective
import PdfWorker.Json.Token
import PdfWorker.Limits
import PdfWorker.LinkError
import PdfWorker.Main
import PdfWorker.Options
import PdfWorker.Path
import PdfWorker.Platform
import PdfWorker.Proofs.Agreement
import PdfWorker.Proofs.Capture.Drain
import PdfWorker.Proofs.Capture.ErrorStream
import PdfWorker.Proofs.Diagnostic
import PdfWorker.Proofs.Diagnostic.Lines
import PdfWorker.Proofs.Diagnostic.Message
import PdfWorker.Proofs.Diagnostic.Names
import PdfWorker.Proofs.Diagnostic.Phrasings
import PdfWorker.Proofs.Diagnostic.Slices
import PdfWorker.Proofs.FileTree
import PdfWorker.Proofs.FileTree.Changes
import PdfWorker.Proofs.Json.Grammar
import PdfWorker.Proofs.Json.Members
import PdfWorker.Proofs.Json.Parser
import PdfWorker.Proofs.Json.Size
import PdfWorker.Proofs.Json.Spelling
import PdfWorker.Proofs.Json.Strings
import PdfWorker.Proofs.Json.Structure
import PdfWorker.Proofs.Json.Token
import PdfWorker.Proofs.Path
import PdfWorker.Proofs.Platform
import PdfWorker.Proofs.Platform.SearchPath
import PdfWorker.Proofs.Request
import PdfWorker.Proofs.Request.Fields
import PdfWorker.Proofs.Request.Lenient
import PdfWorker.Proofs.Response
import PdfWorker.Proofs.Staging
import PdfWorker.Proofs.Stream.Frame
import PdfWorker.Proofs.Stream.RoundTrip
import PdfWorker.Proofs.Stream.Sink
import PdfWorker.Proofs.Stream.Source
import PdfWorker.Proofs.Supervisor.Call
import PdfWorker.Proofs.Supervisor.Conversation
import PdfWorker.Proofs.Supervisor.Exchange
import PdfWorker.Proofs.Supervisor.Finished
import PdfWorker.Proofs.Supervisor.Link
import PdfWorker.Proofs.Supervisor.Mistaken
import PdfWorker.Proofs.Supervisor.Overheard
import PdfWorker.Proofs.Text.Cut
import PdfWorker.Proofs.Text.Lines
import PdfWorker.Proofs.Text.Occurrences
import PdfWorker.Proofs.Text.Octets
import PdfWorker.Proofs.Text.Slices
import PdfWorker.Proofs.Worker.Abort
import PdfWorker.Proofs.Worker.Acts
import PdfWorker.Proofs.Worker.Announcement
import PdfWorker.Proofs.Worker.Answers
import PdfWorker.Proofs.Worker.CaptureCalls
import PdfWorker.Proofs.Worker.CaptureIndependence
import PdfWorker.Proofs.Worker.Checks
import PdfWorker.Proofs.Worker.Dialogue
import PdfWorker.Proofs.Worker.FontPath
import PdfWorker.Proofs.Worker.Lifecycle
import PdfWorker.Proofs.Worker.Likeness
import PdfWorker.Proofs.Worker.Lockstep
import PdfWorker.Proofs.Worker.Moderate
import PdfWorker.Proofs.Worker.Output
import PdfWorker.Proofs.Worker.Overflow
import PdfWorker.Proofs.Worker.Pieces
import PdfWorker.Proofs.Worker.Secrecy
import PdfWorker.Proofs.Worker.Serve
import PdfWorker.Proofs.Worker.Traceless
import PdfWorker.Proofs.Worker.Turn
import PdfWorker.Proofs.Worker.Veil
import PdfWorker.Proofs.Worker.Watched
import PdfWorker.Request
import PdfWorker.Response
import PdfWorker.Staging
import PdfWorker.Stream.Frame
import PdfWorker.Stream.Sink
import PdfWorker.Stream.Source
import PdfWorker.Supervisor
import PdfWorker.Supervisor.Launch
import PdfWorker.Supervisor.LiveWorker
import PdfWorker.Supervisor.Peer
import PdfWorker.Text.Cut
import PdfWorker.Text.Literal
import PdfWorker.Text.Lossy
import PdfWorker.Text.Visible
import PdfWorker.Worker
import PdfWorker.World
