import ImageScoring.Archive.Checksum
import ImageScoring.Archive.Inflate
import ImageScoring.Archive.Tar
import ImageScoring.Archive.Tar.Unpack
import ImageScoring.Archive.Zip
import ImageScoring.Archive.Zip.Extra
import ImageScoring.Archive.Zip.Extract
import ImageScoring.Archive.Zip.Record
import ImageScoring.Bytes
import ImageScoring.CommandLine
import ImageScoring.CommandLine.Options
import ImageScoring.Display.Notifier
import ImageScoring.Display.Server
import ImageScoring.Display.Template
import ImageScoring.Error
import ImageScoring.Files.Action
import ImageScoring.Files.Disk
import ImageScoring.Files.Fault
import ImageScoring.Files.Path
import ImageScoring.Files.Resolve
import ImageScoring.Filter
import ImageScoring.Host.Channel
import ImageScoring.Host.Message
import ImageScoring.Host.Service
import ImageScoring.Main
import ImageScoring.Number.Binary64
import ImageScoring.Number.Prefix
import ImageScoring.Output
import ImageScoring.Payload
import ImageScoring.Proofs.Archive.Extraction
import ImageScoring.Proofs.Archive.Unpacking
import ImageScoring.Proofs.Count
import ImageScoring.Proofs.Display.Allocation
import ImageScoring.Proofs.Display.FirstFree
import ImageScoring.Proofs.Display.Probing
import ImageScoring.Proofs.Display.Readiness
import ImageScoring.Proofs.Display.Template
import ImageScoring.Proofs.Files.Actions
import ImageScoring.Proofs.Files.Change
import ImageScoring.Proofs.Files.Fresh
import ImageScoring.Proofs.Files.Logic
import ImageScoring.Proofs.Files.Names
import ImageScoring.Proofs.Files.Resolution
import ImageScoring.Proofs.Files.Routes
import ImageScoring.Proofs.Filter.Confinement
import ImageScoring.Proofs.Filter.Omission
import ImageScoring.Proofs.Filter.Release
import ImageScoring.Proofs.Filter.Start
import ImageScoring.Proofs.Filter.Teardown
import ImageScoring.Proofs.Filter.Writing
import ImageScoring.Proofs.Host.Asking
import ImageScoring.Proofs.Host.Conversation
import ImageScoring.Proofs.Host.Listening
import ImageScoring.Proofs.Host.Startup
import ImageScoring.Proofs.Host.Transcript
import ImageScoring.Proofs.Number.Value
import ImageScoring.Proofs.Reply.Acceptance
import ImageScoring.Proofs.Reply.Cut
import ImageScoring.Proofs.Reply.Encoding
import ImageScoring.Proofs.Reply.Grammar
import ImageScoring.Proofs.Reply.Growth
import ImageScoring.Proofs.Reply.Opening
import ImageScoring.Proofs.Reply.Reading
import ImageScoring.Proofs.Reply.Recovery
import ImageScoring.Proofs.Reply.Resync
import ImageScoring.Proofs.Reply.Sequence
import ImageScoring.Proofs.Reply.Spelling
import ImageScoring.Proofs.Reply.Truncation
import ImageScoring.Proofs.Request
import ImageScoring.Proofs.Utf8
import ImageScoring.Proofs.Worker.Answering
import ImageScoring.Proofs.Worker.Collection
import ImageScoring.Proofs.Worker.Delivery
import ImageScoring.Proofs.Worker.Ended
import ImageScoring.Proofs.Worker.Refusal
import ImageScoring.Proofs.Worker.Release
import ImageScoring.Proofs.Worker.Storing
import ImageScoring.Proofs.Workspace.Filling
import ImageScoring.Proofs.Workspace.Isolation
import ImageScoring.Proofs.Workspace.Setup
import ImageScoring.Reply.Basic
import ImageScoring.Reply.Reader
import ImageScoring.Reply.Session
import ImageScoring.Request
import ImageScoring.ScriptName
import ImageScoring.Settings.Choice
import ImageScoring.Settings.Command
import ImageScoring.Settings.Config
import ImageScoring.Settings.Environment
import ImageScoring.Settings.LogDirectives
import ImageScoring.Settings.Logging
import ImageScoring.System
import ImageScoring.Text.Alphanumeric
import ImageScoring.Text.Base64
import ImageScoring.Text.Blank
import ImageScoring.Text.CodePage
import ImageScoring.Text.Count
import ImageScoring.Text.Hidden
import ImageScoring.Text.Keyword
import ImageScoring.Text.Pattern
import ImageScoring.Text.Pattern.Atom
import ImageScoring.Text.Pattern.Brackets
import ImageScoring.Text.Quoted
import ImageScoring.Text.Ranges
import ImageScoring.Text.Utf8
import ImageScoring.Version
import ImageScoring.Worker
import ImageScoring.Worker.Exit
import ImageScoring.Worker.Process
import ImageScoring.Workspace
import ImageScoring.Proofs.Payload
import ImageScoring.Proofs.Reply.Resumption
import ImageScoring.Proofs.Host.Cut
import ImageScoring.Proofs.Worker.Polling
import ImageScoring.Proofs.Filter.Pixels
import ImageScoring.Proofs.Base64
import ImageScoring.Proofs.ScriptName
import ImageScoring.Proofs.Number.Hexadecimal
import ImageScoring.Proofs.Settings.Environment
import ImageScoring.Proofs.Settings.Precedence
import ImageScoring.Display.SelfPipe
import ImageScoring.Proofs.CommandLine.NoColor
import ImageScoring.Proofs.Display.SelfPipe
import ImageScoring.Proofs.Archive.Contents
import ImageScoring.Proofs.Workspace.Bundle
