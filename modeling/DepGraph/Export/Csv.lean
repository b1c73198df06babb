import DepGraph.Decimal.Layout
import DepGraph.Graph.Basic

/-!
# Tables of edges

A table has a record of five fields for each edge, after a record of headings. A field that holds a
comma, a quote or a line feed stands between quotes, and quotes in it are doubled.

* `count_quote_doubled`: in a doubled field there are twice as many quotes.
-/

namespace DepGraph.Csv

/-- The text with every quote doubled. -/
def doubleQuotes (text : List Char) : List Char :=
  text.flatMap fun c => if c == '"' then ['"', '"'] else [c]

/-- Does the text have to stand between quotes? -/
def needsQuotes (text : List Char) : Bool :=
  text.any fun c => c == ',' || c == '"' || c == '\n'

/-- The written form of a field. -/
def field (text : List Char) : List Char :=
  if needsQuotes text then '"' :: doubleQuotes text ++ ['"'] else text

/-- The written form of a record. -/
def record (fields : List (List Char)) : List Char :=
  [','].intercalate (fields.map field) ++ ['\n']

/-- The headings. -/
def headings : List String :=
  ["from", "to", "type", "optional", "weight"]

/-- The fields of an edge. -/
def fields (e : Edge) : List String :=
  [e.source, e.target, e.kind.name, toString e.optional, Decimal.plain e.weight]

/-- The records of a graph: the headings and the edges in order. -/
def records (g : Graph) : List (List String) :=
  headings :: g.sortedEdges.map fields

/-- The table of a graph. -/
def table (g : Graph) : List Char :=
  (records g).flatMap fun r => record (r.map String.toList)

theorem count_quote_doubled (text : List Char) :
    (doubleQuotes text).count '"' = 2 * text.count '"' := by
  unfold doubleQuotes
  induction text with
  | nil => rfl
  | cons c rest ih =>
    rw [List.flatMap_cons, List.count_append, ih]
    by_cases h : c = '"'
    · subst h
      simp
      omega
    · simp [h]

end DepGraph.Csv
