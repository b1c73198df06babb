import DepGraph.Source.Script.Ending
import DepGraph.Source.Script.Lexeme
import DepGraph.Source.Script.Outline

/-!
# What is still to be read

A goal is a part of a script that should come next. The grammar answers a goal with the ways to
reach it: each reads a little and names the goals that come first then. A goal that reads nothing is
a step of drawing the outline or ends a choice between ways.
-/

namespace DepGraph.Script

/-! ## Where a construct stands -/

/-- Where an expression stands. -/
structure Place where
  ending : Ending := .enclosed
  /-- May the expression go on after a comma? -/
  commas : Bool := false
  /-- May a colon follow the expression? -/
  colon : Bool := false
  /-- Is the expression what a class extends? -/
  base : Bool := false

/-- Where a type stands. -/
structure TypePlace where
  ending : Ending := .enclosed
  /-- Is the type the first thing in angle brackets after an operand, so that all of it might be an
  operand after a comparison? -/
  leading : Bool := false

/-- What becomes of the names that a declaration introduces. -/
inductive Role where
  | plain
  | exported
  /-- The declaration stands in the head of a loop, which ends it. -/
  | loop
  deriving Repr, DecidableEq

/-! ## Goals -/

/-- Parts of expressions. -/
inductive ExpressionGoal where
  | operand (place : Place)
  /-- What follows an operand. -/
  | suffix (place : Place)
  /-- What follows a word that loads a module where it is called. -/
  | called (loader : Reading) (place : Place)
  /-- The class after `new`. -/
  | created (ending : Ending)
  /-- What follows the class after `new`, up to its arguments. -/
  | creation (ending : Ending)
  /-- What follows parentheses that may hold parameters. -/
  | afterParameters (place : Place)
  | arrowBody (place : Place)
  /-- The arguments of a call that loads a module, whose parenthesis has just been read. -/
  | loadArguments
  /-- The rest of the arguments of a call, which may name the module that is loaded. -/
  | arguments (loads : Bool)
  | afterArgument (loads : Bool)
  /-- The rest of the parameters of a function, or of the parentheses around an expression. -/
  | parameters
  | afterParameter
  /-- The rest of the elements of an array. -/
  | elements
  | afterElement
  /-- The rest of the fields of an object. -/
  | fields
  | field
  | afterFieldName
  | afterField
  /-- The rest of a template, whose substitutions are expressions. -/
  | template
  /-- A decorator after its mark. -/
  | decorator
  | afterDecorator
  /-- Type arguments have just been closed: does what follows allow for them? -/
  | closedTypes (place : Place)
  /-- The name of a member after a point. -/
  | memberName

/-- Parts of types. -/
inductive TypeGoal where
  | type (place : TypePlace)
  /-- What follows a type. -/
  | suffix (place : TypePlace)
  /-- What follows the type that another one extends. -/
  | condition (place : TypePlace)
  /-- The parameters of a function that makes an object. -/
  | construction
  /-- The rest of the arguments between angle brackets. -/
  | arguments (leading : Bool)
  | afterArgument
  /-- The rest of the parameters between angle brackets. -/
  | parameters
  | afterParameter
  /-- The rest of a tuple. -/
  | tuple (leading : Bool)
  | afterItem
  /-- The rest of a template, whose substitutions are types. -/
  | template
  /-- What `typeof` asks about. -/
  | query (place : TypePlace)
  | afterQuery (place : TypePlace)
  /-- The rest of the members of an object type. -/
  | members
  | member
  | afterMemberName
  | afterMember
  /-- What stands between the square brackets of a member. -/
  | index
  | afterIndex

/-- Parts of functions and classes. -/
inductive MemberGoal where
  /-- The name of a declaration, where it has one. -/
  | name (role : Role)
  /-- Parameters and result of a function. -/
  | signature (ending : Ending)
  | result (ending : Ending)
  /-- The body of a function, without which only a declared function ends. -/
  | body
  /-- What follows the name of a class. The flag says that the last base was given as a type. -/
  | classRest (types : Bool)
  | members
  | member
  | afterMemberName
  | afterMember (ending : Ending)
  | enumerators
  | afterEnumerator
  | interfaceRest

/-- Parts of statements. -/
inductive StatementGoal where
  | program
  | statement
  /-- The rest of a block. -/
  | statements
  | block
  /-- What follows the body of a statement, or a semicolon that is missing. -/
  | afterBody
  | semicolon (ending : Ending)
  /-- The rest of a list of declarators. -/
  | declarators (role : Role)
  | afterDeclarator (ending : Ending) (role : Role)
  | declaration (role : Role)
  /-- The name of a namespace, which started at the cursor. -/
  | path (start : Cursor) (role : Role)
  | namespaceBody
  /-- What follows decorators that started on the line. -/
  | decorated (line : Nat)
  | condition
  | elseBranch
  | loopHead
  | afterLoopHead
  | loopTest
  | loopStep
  | afterLoopBody
  /-- The rest of the clauses of a switch. -/
  | clauses
  | handlers
  /-- The rest of an import declaration. -/
  | importClause
  | importNames
  | aliasTarget
  /-- What follows the source of a declaration. -/
  | afterSource
  /-- The rest of an export declaration. -/
  | exported
  | exportDefault
  /-- The rest of an export clause, after the words of an item, the last one first. -/
  | exportNames (item : List Reading)
  | afterExportNames
  | exportSource

/-- Parts of markup. -/
inductive MarkupGoal where
  /-- An element after its first bracket. -/
  | element
  | elementName
  | afterElementName
  | attributes
  | attributeName
  | attributeValue
  | children
  /-- The closing tag after its slash. -/
  | closingTag

/-- What should come next. -/
inductive Goal where
  | draw (stroke : Stroke)
  /-- Gives up the choices beyond so many. -/
  | commit (choices : Nat)
  /-- From here on, may a statement end where its semicolon is missing? -/
  | forgive (forgiving : Bool)
  /-- Goes on where reading failed last, with what had been found. -/
  | recover
  | mark (text : String)
  | word (text : String)
  | expression (goal : ExpressionGoal)
  | type (goal : TypeGoal)
  | member (goal : MemberGoal)
  | statement (goal : StatementGoal)
  | markup (goal : MarkupGoal)

/-- A way to reach a goal: the text that is left after what it reads, and the goals that come first
then. -/
structure Way where
  cursor : Cursor
  goals : List Goal

namespace Reading

/-- The kind of the node that stands for the lexeme. Words of the language are no identifiers. -/
def kind (t : Reading) : NodeKind :=
  match t.lexeme with
  | .word w => if w == "default" then .default else if w == "import" then .other else .identifier
  | .string _ => .string
  | _ => .other

/-- Draws the node that stands for the lexeme. -/
def leaf (t : Reading) (field : Option Field := none) : Goal :=
  .draw (.leaf { kind := t.kind, field, line := t.start.line, text := t.text })

/-- Enters a node that starts with the lexeme. -/
def enter (t : Reading) (kind : NodeKind := .other) (field : Option Field := none) : Goal :=
  .draw (.enter { kind, field, line := t.start.line })

end Reading

namespace Cursor

/-- The one way that goes on from the cursor to the goals. -/
def seek (c : Cursor) (goals : List Goal) : List Way :=
  [⟨c, goals⟩]

/-- The way that reads nothing and has nothing more to read. -/
def stay (c : Cursor) : List Way :=
  [⟨c, []⟩]

theorem seek_nil (c : Cursor) : c.seek [] = c.stay := rfl

/-- The ways to read the text of a template. After a substitution, which the goal stands for, comes
its brace and more text. Nothing follows a template that is never closed. -/
def templateWays (c : Cursor) (substitution more : Goal) : List Way :=
  match c.templateText with
  | (.closed, after) => after.stay
  | (.substitution, after) => after.seek [substitution, .mark "\x7d", more]
  | (.unclosed, after) => after.seek [.mark "\x60"]

end Cursor

namespace Reading

/-- The way that reads the lexeme, if it is what should stand there. -/
def expect (t : Reading) (holds : Bool) (goals : List Goal) : List Way :=
  if holds then t.after.seek goals else []

/-- Can the lexeme start the name of a member? -/
def startsName (t : Reading) : Bool :=
  match t.lexeme with
  | .word _ | .number | .string _ => true
  | .mark m => m == "[" || m == "*"
  | .finish => false

end Reading

end DepGraph.Script
