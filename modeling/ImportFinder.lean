import ImportFinder.Log.Template
import ImportFinder.Main
import ImportFinder.Proofs.Search.Consistency
import ImportFinder.Proofs.Search.Monotone
import ImportFinder.Proofs.Walk.Recursion
import ImportFinder.Tree.Disk
import ImportFinder.Tree.Memory
import ImportFinder.Proofs.Search.Order
import ImportFinder.Proofs.Search.Extensions
import ImportFinder.Proofs.Walk.Fault
import ImportFinder.Proofs.Search.Fault
import ImportFinder.Proofs.Path.Parent
import ImportFinder.Proofs.Tree.Linked
import ImportFinder.Proofs.Path.Absolute
import ImportFinder.Proofs.Tree.Growth
import ImportFinder.Proofs.Tree.Distinct
import ImportFinder.Proofs.Path.Mention
import ImportFinder.Proofs.Walk.Sequence
import ImportFinder.Proofs.Tree.Traversal
import ImportFinder.Proofs.Report.Unused
import ImportFinder.Proofs.Report.Document
import ImportFinder.Proofs.Matching.Binding
import ImportFinder.Proofs.Matching.Count
import ImportFinder.Proofs.Scan.Usage
import ImportFinder.Proofs.Failure
import ImportFinder.Proofs.Plan.Build
import ImportFinder.Proofs.CommandLine.Misuse
import ImportFinder.Proofs.Environment
import ImportFinder.Proofs.Log.Template
import ImportFinder.Proofs.Text.Lower
import ImportFinder.Proofs.Plan.Precedence
import ImportFinder.Proofs.Matching.Sweep
import ImportFinder.Proofs.Tree.Update
import ImportFinder.Proofs.Search.Refusal
import ImportFinder.Proofs.Search.Logged
import ImportFinder.Proofs.Ignore.File
import ImportFinder.Proofs.Scan.Comment
import ImportFinder.Proofs.Scan.LineEnd
import ImportFinder.Proofs.Matching.Segment
import ImportFinder.Proofs.Report.Highlight
import ImportFinder.Proofs.Failure.Classification
import ImportFinder.Proofs.Target
import ImportFinder.Proofs.Progress
import ImportFinder.Proofs.Ignore.Canonical
import ImportFinder.Proofs.Path.Relative
