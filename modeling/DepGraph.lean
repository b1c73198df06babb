import DepGraph.Decimal.Reader
import DepGraph.Encoding
import DepGraph.Main
import DepGraph.Proofs.Graph.Representation
import DepGraph.Proofs.Search.Reached
import DepGraph.Proofs.Search.Closing
import DepGraph.Proofs.Search.Course
import DepGraph.Proofs.Cycle.Detection
import DepGraph.Proofs.Cycle.Remedy
import DepGraph.Proofs.Depth.Computed
import DepGraph.Proofs.Depth.LongestChain
import DepGraph.Proofs.Graph.Reachability
import DepGraph.Proofs.Depth.CriticalPath
import DepGraph.Proofs.Depth.CompletionOrder
import DepGraph.Proofs.Depth.Determined
import DepGraph.Proofs.Run.Returning
import DepGraph.Proofs.Run.Reporting
import DepGraph.Proofs.Run.Course
import DepGraph.Proofs.Run.Bracketing
import DepGraph.Proofs.Graph.Annotation
import DepGraph.Proofs.Graph.Union
import DepGraph.Proofs.Graph.Structure
import DepGraph.Proofs.Graph.MergeLaws
import DepGraph.Proofs.Graph.Assembled
import DepGraph.Proofs.Graph.Annotated
import DepGraph.Proofs.Text.Readers
import DepGraph.Proofs.Export.Csv
import DepGraph.Proofs.Export.Dot
import DepGraph.Proofs.Export.Mermaid
import DepGraph.Proofs.Export.Agreement
import DepGraph.Proofs.Files.Walk
import DepGraph.Proofs.Files.Discovered
import DepGraph.Proofs.Files.Below
import DepGraph.Proofs.Resolve.Confinement
import DepGraph.Proofs.Resolve.Beside
import DepGraph.Proofs.Resolve.Exclusion
import DepGraph.Proofs.Resolve.Language
import DepGraph.Proofs.Resolve.Spelling
import DepGraph.Proofs.Source.PythonBlocks
import DepGraph.Proofs.Source.PythonClauses
import DepGraph.Proofs.Source.PythonPages
import DepGraph.Proofs.Source.PythonFindings
import DepGraph.Proofs.Source.OutlineWalk
import DepGraph.Proofs.Build.Fresh
import DepGraph.Proofs.Build.Directory
import DepGraph.Proofs.Build.Course
import DepGraph.Proofs.Build.Accounting
import DepGraph.Proofs.Build.Meaning
import DepGraph.Proofs.Build.Packages
import DepGraph.Proofs.Build.Declared
import DepGraph.Proofs.Build.Distinct
import DepGraph.Proofs.Build.Beforehand
import DepGraph.Proofs.Build.Order
import DepGraph.Proofs.Analysis.Phases
import DepGraph.Proofs.Analysis.Course
import DepGraph.Proofs.Analysis.Coherence
import DepGraph.Proofs.Analysis.Project
import DepGraph.Proofs.Analysis.Grouping
import DepGraph.Proofs.Analysis.Suggestions
import DepGraph.Proofs.Analysis.Counting
import DepGraph.Proofs.Resolve.History
import DepGraph.Proofs.Resolve.NormalForm
import DepGraph.Proofs.Run.Families
import DepGraph.Proofs.Source.PythonGaps
import DepGraph.Proofs.Source.PythonLayout
