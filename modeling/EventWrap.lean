import EventWrap.Occurrence
import EventWrap.Json.Reader
import EventWrap.Json.Access
import EventWrap.Json.Writer
import EventWrap.Json.Decoder
import EventWrap.Text.Letter
import EventWrap.Text.Blank
import EventWrap.Text.Lines
import EventWrap.Program.NameCache
import EventWrap.Program.CoreLibrary
import EventWrap.Document.Codec
import EventWrap.Document.Loading
import EventWrap.Events.Consulted
import EventWrap.Events.Codec
import EventWrap.Code.Identifier
import EventWrap.Code.Layout
import EventWrap.Wrapper.Factory
import EventWrap.Settings.Codec
import EventWrap.Files.Tree
import EventWrap.Host.Directory
import EventWrap.Host.Layered
import EventWrap.Host.Memory
import EventWrap.Pass.Event.Codec
import EventWrap.Generator
import EventWrap.Command.Perform
import EventWrap.Main
import EventWrap.Proofs.Occurrence
import EventWrap.Proofs.Program.TypeRef
import EventWrap.Proofs.Events.Ancestry
import EventWrap.Proofs.Events.Collected
import EventWrap.Proofs.Pass.Effects
import EventWrap.Proofs.Pass.Progress
import EventWrap.Proofs.Pass.Lineage
import EventWrap.Proofs.Pass.Accounts
import EventWrap.Proofs.Pass.Cancellation
import EventWrap.Proofs.Pass.Discovery
import EventWrap.Proofs.Pass.Trace
import EventWrap.Proofs.Pass.Origins
import EventWrap.Proofs.Wrapper.Subscription
import EventWrap.Proofs.Command.Agreement
import EventWrap.Proofs.Document.Codec
import EventWrap.Proofs.Generator
import EventWrap.Proofs.Pass.Classes
import EventWrap.Proofs.Document.Scoping
import EventWrap.Proofs.Program.NameCache
import EventWrap.Proofs.Program.Applied
import EventWrap.Proofs.Program.Substitution
import EventWrap.Proofs.Wrapper.Closed
import EventWrap.Proofs.Events.Hiding
import EventWrap.Proofs.Document.Validity
import EventWrap.Proofs.Pass.Simulation
import EventWrap.Proofs.Files.Path
import EventWrap.Proofs.Files.Tree
import EventWrap.Proofs.Host.Sinks
import EventWrap.Proofs.Code.Pieces
import EventWrap.Proofs.Code.Tidy
import EventWrap.Proofs.Code.Undocumented
import EventWrap.Proofs.Code.Braces
import EventWrap.Proofs.Code.Blocks
import EventWrap.Proofs.Code.Indentation
import EventWrap.Proofs.Code.Grouping
import EventWrap.Proofs.Program.OneLine
import EventWrap.Proofs.Settings
import EventWrap.Proofs.Wrapper.Tidy
import EventWrap.Proofs.Pass.Switches
import EventWrap.Proofs.Pass.Listeners
import EventWrap.Proofs.Events.Inheritance
import EventWrap.Proofs.Code.ArrayTypes
import EventWrap.Proofs.Code.Binding
import EventWrap.Proofs.Wrapper.Element
import EventWrap.Proofs.Wrapper.Factory
import EventWrap.Proofs.Wrapper.Hygiene
import EventWrap.Proofs.Code.Identifier
import EventWrap.Proofs.Wrapper.Declared
import EventWrap.Proofs.Code.Literal
import EventWrap.Proofs.Code.Words
import EventWrap.Proofs.Wrapper.Keywords
import EventWrap.Proofs.Wrapper.HintName
import EventWrap.Proofs.Triggers
import EventWrap.Proofs.Wrapper.Extensions
import EventWrap.Proofs.Pass.Snapshot
import EventWrap.Proofs.Command.Warnings
import EventWrap.Proofs.Diagnostic
import EventWrap.Proofs.TriggersUnit
