/-!
# Outline of a script

The outline is the part of the syntax tree that matters for dependencies: declarations that load or
give names, with the nodes that say which, calls that load a module, and the blocks and bodies
around them. While a script is read, the outline is a draft: the nodes whose ends have not been
read, the innermost first, each with what has been found in it.

* `Draft.draw_leaf`: a node by itself is entered and left.
* `Draft.close_leave`: leaving a node early does not change the outline.
-/

namespace DepGraph.Script

/-- The kinds of nodes that are told apart. -/
inductive NodeKind where
  | importStatement
  | exportStatement
  | exportClause
  | exportSpecifier
  | variableDeclarator
  | callExpression
  | identifier
  | string
  /-- The word before what is exported by default. -/
  | default
  | other
  deriving Repr, DecidableEq

/-- Has the node a name in the grammar, as opposed to words and marks that stand for themselves? -/
def NodeKind.isNamed (kind : NodeKind) : Bool :=
  kind != .default

/-- What a node may be to the node around it. -/
inductive Field where
  | source
  | declaration
  | name
  | newName
  | function
  | arguments
  deriving Repr, DecidableEq

/-- What a node is, the line on which it starts, and the text of a node that contains no others. -/
structure Label where
  kind : NodeKind := .other
  field : Option Field := none
  line : Nat
  text : String := ""
  deriving Repr, DecidableEq

/-- A node and what it contains. -/
inductive Outline where
  | node (label : Label) (children : List Outline)
  deriving Repr

namespace Outline

/-- What the node is. -/
def label : Outline → Label
  | .node l _ => l

/-- The nodes directly below. -/
def children : Outline → List Outline
  | .node _ cs => cs

/-- The kind of the node. -/
def kind (o : Outline) : NodeKind :=
  o.label.kind

/-- The line on which the node starts. -/
def line (o : Outline) : Nat :=
  o.label.line

/-- The text of the node. -/
def text (o : Outline) : String :=
  o.label.text

/-- The first child in the field. -/
def child? (o : Outline) (field : Field) : Option Outline :=
  o.children.find? (·.label.field == some field)

/-- The children that are named nodes. -/
def namedChildren (o : Outline) : List Outline :=
  o.children.filter (·.kind.isNamed)

end Outline

/-! ## Drafts -/

/-- A node whose end has not been read. What has been found in it stands with the last one first. -/
structure OpenNode where
  label : Label
  found : List Outline := []

namespace OpenNode

/-- The node, taken to end here. -/
def close (n : OpenNode) : Outline :=
  .node n.label n.found.reverse

/-- The node after another one in it has ended. -/
def add (n inner : OpenNode) : OpenNode :=
  { n with found := inner.close :: n.found }

end OpenNode

/-- The innermost node whose end has not been read, and those around it, from the inside out. -/
structure Draft where
  node : OpenNode
  outer : List OpenNode := []

/-- A step of drawing an outline. -/
inductive Stroke where
  | enter (label : Label)
  | leave
  /-- A node that contains no others. -/
  | leaf (label : Label)

namespace Draft

/-- The draft before anything has been found. -/
def empty : Draft :=
  ⟨⟨{ line := 1 }, []⟩, []⟩

/-- The draft after a step. The root is never left. -/
def draw (d : Draft) : Stroke → Draft
  | .enter label => ⟨⟨label, []⟩, d.node :: d.outer⟩
  | .leave =>
    match d.outer with
    | [] => d
    | n :: rest => ⟨n.add d.node, rest⟩
  | .leaf label => { d with node := d.node.add ⟨label, []⟩ }

/-- The draft without the nodes that have not ended. What has been found in them is kept. -/
def abandon (d : Draft) : Draft :=
  ⟨d.outer.foldl (fun inner n => { n with found := inner.found ++ n.found }) d.node, []⟩

/-- The outline, if every node ends here. -/
def close (d : Draft) : Outline :=
  (d.outer.foldl (fun inner n => n.add inner) d.node).close

theorem close_leave (d : Draft) : (d.draw .leave).close = d.close := by
  obtain ⟨node, outer⟩ := d
  cases outer <;> rfl

theorem abandon_enter (d : Draft) (label : Label) : (d.draw (.enter label)).abandon = d.abandon :=
  rfl

theorem draw_leaf (d : Draft) (label : Label) :
    d.draw (.leaf label) = (d.draw (.enter label)).draw .leave := rfl

end Draft

end DepGraph.Script
