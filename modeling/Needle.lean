import Needle.Main
import Needle.Workspace
import Needle.Proofs.Json.RoundTrip
import Needle.Proofs.Json.Records
import Needle.Proofs.Pattern.Artifact
import Needle.Proofs.File.Leads
import Needle.Proofs.File.Write
import Needle.Proofs.File.Growth
import Needle.Proofs.Scan.Ledger
import Needle.Proofs.Scan.Table
import Needle.Proofs.Scan.Outcome
import Needle.Proofs.Pattern.Match
import Needle.Proofs.Scan.Protocol
import Needle.Proofs.File.Path
import Needle.Proofs.RuleSet.Match
import Needle.Proofs.RuleSet.RoundTrip
import Needle.Proofs.Scan.Threads
import Needle.Proofs.Compiler.Addition
import Needle.Proofs.Compiler.Session
import Needle.Proofs.Pattern.Source
import Needle.Proofs.Compiler.Namespaces
import Needle.Scan.Parallel
import Needle.Proofs.Scan.Replay
import Needle.Proofs.Scan.Isolation
import Needle.Client
import Needle.Proofs.Engine.Holders
import Needle.Proofs.Client.Operations
import Needle.Proofs.Client.Lifecycle
import Needle.Proofs.Engine.History
import Needle.Proofs.Client.Run
import Needle.Proofs.Client.History
import Needle.Proofs.Client.Constancy
import Needle.Proofs.Client.Files
import Needle.Proofs.Scan.Quiet
import Needle.Proofs.RuleSet.File
import Needle.Proofs.RuleSet.Naming
import Needle.Proofs.Command.Files
import Needle.Proofs.Command.Accounting
import Needle.Proofs.Command.Owner
import Needle.Proofs.Command.Sources
import Needle.Proofs.Command.Compile
import Needle.Proofs.File.Elsewhere
import Needle.Proofs.Command.Scan
import Needle.Proofs.Command.Frame
import Needle.Proofs.Json.Pretty
import Needle.Proofs.File.Walk
import Needle.Proofs.Command.Targets
import Needle.Proofs.Command.Document
import Needle.Proofs.Config.RoundTrip
import Needle.Proofs.Command.Reset
import Needle.Proofs.Text.Words
import Needle.Proofs.Pattern.Reading
import Needle.Proofs.Compiler.Seam
import Needle.Proofs.Pattern.Lines
import Needle.Proofs.Pattern.Spelling
import Needle.Proofs.Untraced
import Needle.Proofs.File.Read
import Needle.Proofs.Compiler.File
import Needle.Proofs.Scan.Status
import Needle.Proofs.Scan.Blind
import Needle.Proofs.RuleSet.FileScan
import Needle.Proofs.Text.Ascii
import Needle.Proofs.Json.Grammar
import Needle.Proofs.Json.Extent
import Needle.Proofs.Pattern.Shape
import Needle.Proofs.Pattern.Torn
import Needle.Proofs.RuleSet.Loading
import Needle.Proofs.Command.Selection
import Needle.Proofs.Config.Overlay
import Needle.Proofs.Scan.Timeout
import Needle.Proofs.Rule.Metadata
import Needle.Proofs.Rule.RoundTrip
import Needle.Proofs.Config.Usable
import Needle.Proofs.RuleSet.QualifiedName
import Needle.Proofs.Command.Argument
import Needle.Proofs.RuleSet.Surroundings
import Needle.Proofs.Command.Accepted
