import CommandShell.Console
import CommandShell.Files.Changes
import CommandShell.Link.Supply
import CommandShell.Main
import CommandShell.Proofs.Cancellation.History
import CommandShell.Proofs.Chain.Progress
import CommandShell.Proofs.Line.Layout
import CommandShell.Proofs.Line.Scan
import CommandShell.Proofs.Line.SegmentText
import CommandShell.Proofs.Line.Targets
import CommandShell.Proofs.Link.Traffic
import CommandShell.Proofs.Pipeline.InTurn
import CommandShell.Proofs.Pipeline.Preparing
import CommandShell.Proofs.Pipeline.Redirecting
import CommandShell.Proofs.Pipeline.Success
import CommandShell.Proofs.Schema.Ordering
import CommandShell.Proofs.Schema.Typing
import CommandShell.Proofs.Schema.Usage
import CommandShell.Proofs.Session.Quoting
import CommandShell.Proofs.Session.Recall
import CommandShell.Proofs.Session.Remembering
import CommandShell.Queue
import CommandShell.Sample
import CommandShell.Proofs.Encoding.Wide
import CommandShell.Proofs.Encoding.Detect
import CommandShell.Proofs.Command.Resolving
import CommandShell.Proofs.Chain.KeyTraffic
import CommandShell.Proofs.Pipeline.Sharing
import CommandShell.Proofs.Command.Ordering
import CommandShell.Proofs.Link.Ended
import CommandShell.Proofs.Pipeline.FinalBreak
import CommandShell.Proofs.Chain.Cutting
import CommandShell.Proofs.Link.Drained
import CommandShell.Proofs.Builtin.BothWays
import CommandShell.Proofs.Line.Culprits
import CommandShell.Proofs.Pipeline.Reversing
import CommandShell.Proofs.Builtin.Names
import CommandShell.Proofs.Environment
import CommandShell.Proofs.Line.Indexing
import CommandShell.Proofs.Toml.Documents
import CommandShell.Proofs.Toml.Bounds
import CommandShell.Proofs.Config.Dump
