import DepGraph.Error
import DepGraph.Export.Csv
import DepGraph.Export.Document
import DepGraph.Export.Dot
import DepGraph.Export.Mermaid
import DepGraph.Text.LowerCase

/-!
# Export formats

A graph can be written as a document, as a table of its edges or as a drawing.

* `ExportFormat.ofLowerName?_name`: a format is found under its own name.
-/

namespace DepGraph

/-- How a graph is written. -/
inductive ExportFormat where
  | json
  | dot
  | mermaid
  | csv
  deriving Repr, DecidableEq

namespace ExportFormat

/-- The name of the format. -/
def name : ExportFormat → String
  | .json => "json"
  | .dot => "dot"
  | .mermaid => "mermaid"
  | .csv => "csv"

/-- The format with the given name in lower case; some have two. -/
def ofLowerName? : String → Option ExportFormat
  | "json" => some .json
  | "dot" | "graphviz" => some .dot
  | "mermaid" | "mmd" => some .mermaid
  | "csv" => some .csv
  | _ => none

/-- The format with the given name, in any case. -/
def ofName (name : String) : Except Error ExportFormat :=
  match ofLowerName? (Text.lowered name) with
  | some format => .ok format
  | none => .error (.unsupportedFormat name)

theorem ofLowerName?_name (f : ExportFormat) : ofLowerName? f.name = some f := by
  cases f <;> rfl

end ExportFormat

/-- The graph in a format. -/
def Graph.export (g : Graph) : ExportFormat → String
  | .json => (Document.ofGraph g).pretty ++ "\n"
  | .dot => String.ofList (Dot.drawing g)
  | .mermaid => String.ofList (Mermaid.drawing g)
  | .csv => String.ofList (Csv.table g)

end DepGraph
