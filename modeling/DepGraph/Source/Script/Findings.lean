import DepGraph.Source.Import
import DepGraph.Source.Script.Walk
import DepGraph.Text.Blank

/-!
# What a script imports and exports

At each node of the outline the walk reads off the kind of the node, its fields and its children
whether the node refers to another module and which names it exports. Nothing else is known at a
node: what stands around it makes no difference.

* `Outline.reference?` and `Outline.exportedNames` are what is found at a node.
* `collect` is what is found in a script.
-/

namespace DepGraph.Script

/-! ## What a node imports -/

/-- The text between the quotes of a string, if there is any. -/
def unquote (text : String) : Option String :=
  let inner := Text.trimMatches (fun c => c == '"' || c == '\'' || c == '\x60') text.toList
  if inner.isEmpty then none else some (String.ofList inner)

/-- How a function loads a module, if it is one that does. -/
def loaderKind? (function : String) : Option ImportKind :=
  match function with
  | "require" => some .require
  | "import" => some .dynamic
  | _ => none

namespace Outline

/-- What the first string among the children says. Later strings do not count. -/
def stringChild? (o : Outline) : Option String :=
  (o.children.find? (·.kind == .string)).bind (unquote ·.text)

/-- The import that a call makes, if what is called loads the module that its arguments name. -/
def loaded? (o : Outline) : Option Import := do
  let function ← o.child? .function
  let kind ← loaderKind? function.text
  let arguments ← o.child? .arguments
  let specifier ← arguments.stringChild?
  return ⟨specifier, kind, o.line⟩

/-- The reference that a node makes, if it makes one. -/
def reference? (o : Outline) : Option Import :=
  match o.kind with
  | .importStatement => o.stringChild?.map fun specifier => ⟨specifier, .static, o.line⟩
  | .exportStatement =>
    ((o.child? .source).bind (unquote ·.text)).map fun specifier => ⟨specifier, .reExport, o.line⟩
  | .callExpression => o.loaded?
  | _ => none

/-! ## What a node exports -/

/-- The name that an item of an export clause gives: the new one, if there is one. -/
def specifierName? (o : Outline) : Option String :=
  ((o.child? .newName).or (o.child? .name)).map text

/-- The names that an export clause gives. -/
def clauseNames (o : Outline) : List String :=
  (o.namedChildren.filter (·.kind == .exportSpecifier)).filterMap specifierName?

/-- The name that a declarator introduces. A pattern counts for none. -/
def declaratorName? (o : Outline) : Option String :=
  ((o.child? .name).filter (·.kind == .identifier)).map text

/-- The names that a declaration introduces: its own, or else those of its declarators. -/
def declaredNames (o : Outline) : List String :=
  match o.child? .name with
  | some name => [name.text]
  | none =>
    (o.namedChildren.filter (·.kind == .variableDeclarator)).filterMap declaratorName?

/-- The names that an export declaration gives. What is declared by default has no other name. -/
def statementNames (o : Outline) : List String :=
  (o.children.filter (·.kind == .exportClause)).flatMap clauseNames ++
    if o.children.any (·.kind == .default) then ["default"]
    else (o.child? .declaration).elim [] declaredNames

/-- The names that a node exports. -/
def exportedNames (o : Outline) : List String :=
  match o.kind with
  | .exportStatement => o.statementNames
  | _ => []

end Outline

/-! ## What a script imports and exports -/

/-- What has been found so far, with one more node. -/
def addNode (found : Array Import × Array String) (o : Outline) : Array Import × Array String :=
  (found.1 ++ o.reference?.toList, found.2 ++ o.exportedNames)

/-- What the script imports and exports, found by the walk. -/
def collect (o : Outline) : ParsedFile :=
  let found := (Position.root o).foldFrom addNode (#[], #[])
  ⟨found.1.toList, found.2.toList⟩

end DepGraph.Script
