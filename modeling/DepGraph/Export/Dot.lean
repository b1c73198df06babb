import DepGraph.Graph.Basic

/-!
# Drawings in DOT

A drawing lists a statement for each node and one for each edge. Texts stand between quotes; quotes
and backslashes in them are escaped, so that no text can end its quotes.

* `escape_append`: texts are escaped character by character.
-/

namespace DepGraph.Dot

/-- The text with its quotes and backslashes escaped. -/
def escape (text : List Char) : List Char :=
  text.flatMap fun c => if c == '\\' || c == '"' then ['\\', c] else [c]

/-- The text between quotes. -/
def quote (text : List Char) : List Char :=
  '"' :: escape text ++ ['"']

/-- The value of an attribute: a plain word, or any text between quotes. -/
inductive Value where
  | word (text : String)
  | text (text : String)
  deriving Repr, DecidableEq

/-- The written form of the value. -/
def Value.render : Value → List Char
  | .word w => w.toList
  | .text t => quote t.toList

/-- A statement of a drawing. -/
inductive Statement where
  | node (id : String) (attributes : List (String × Value))
  | edge (source target : String) (attributes : List (String × Value))
  deriving Repr, DecidableEq

/-! ## What is drawn -/

/-- The statement of a node. Cyclic nodes are filled, and critical nodes have a thick line. -/
def ofNode (n : Node) : Statement :=
  .node n.id <|
    [("label", .text n.name), ("shape", .word "box")] ++
      (if n.cyclic then
        [("style", .word "filled"), ("fillcolor", .text "#f8d7da"), ("color", .word "red")]
      else []) ++
      (if n.critical then [("penwidth", .word "2")] else [])

/-- The statement of an edge. Optional edges are dashed, and other dynamic ones are dotted. -/
def ofEdge (e : Edge) : Statement :=
  .edge e.source e.target <|
    [("label", .text e.kind.name)] ++
      (if e.optional then [("style", .word "dashed")]
      else if e.dynamic then [("style", .word "dotted")]
      else [])

/-- The statements of a graph: the nodes in order, then the edges in order. -/
def statements (g : Graph) : List Statement :=
  g.nodes.map ofNode ++ g.sortedEdges.map ofEdge

/-! ## How it is written -/

/-- The written form of attributes. -/
def renderAttributes (attributes : List (String × Value)) : List Char :=
  '[' :: ", ".toList.intercalate (attributes.map fun a => a.1.toList ++ '=' :: a.2.render) ++ [']']

/-- The written form of a statement, on a line of its own. -/
def Statement.render : Statement → List Char
  | .node id attributes =>
    "  ".toList ++ quote id.toList ++ ' ' :: renderAttributes attributes ++ ";\n".toList
  | .edge source target attributes =>
    "  ".toList ++ quote source.toList ++ " -> ".toList ++ quote target.toList ++
      ' ' :: renderAttributes attributes ++ ";\n".toList

/-- The lines before the statements. -/
def opening : List Char :=
  "digraph dependencies \x7b\n  rankdir=LR;\n".toList

/-- The line after the statements. -/
def closing : List Char :=
  "\x7d\n".toList

/-- The drawing of a graph. -/
def drawing (g : Graph) : List Char :=
  opening ++ (statements g).flatMap Statement.render ++ closing

theorem escape_append (a b : List Char) : escape (a ++ b) = escape a ++ escape b := by
  simp [escape]

end DepGraph.Dot
