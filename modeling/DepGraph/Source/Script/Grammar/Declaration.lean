import DepGraph.Source.Script.Grammar.Members

/-!
# Grammar of declarations

Declarations, among them those that import and export. A declaration draws the names that it
introduces where it is exported. Most words that start a declaration may also be names, so what
follows them decides.
-/

namespace DepGraph.Script

open Goal

namespace Goal

/-- A statement. -/
def body : Goal := .statement .statement

/-- A block that ends its statement. -/
def lastBlock : List Goal := [block, .statement .afterBody]

/-- The end of a statement that ends like this. -/
def semicolon (ending : Ending) : Goal := .statement (.semicolon ending)

/-- A declaration. -/
def declaration (role : Role) : Goal := .statement (.declaration role)

/-- Expressions up to the end of their statement. -/
def expressionStatement : List Goal :=
  [operand { ending := .operand, commas := true }, semicolon .operand]

/-- Expressions up to a closing parenthesis. -/
def toParenthesis : List Goal := [innerOperand, .mark ")"]

/-- A declaration that is exported and starts with the lexeme. -/
def exportedDeclaration (t : Reading) : List Goal :=
  [t.enter .other (some .declaration), declaration .exported, .draw .leave]

end Goal

/-- Does the word start a declaration? Many such words may also be names. -/
def startsDeclaration (dialect : Dialect) (t : Reading) (w : String) : Bool :=
  let n := t.after.read
  let m := n.after.read
  let names := n.isAnyWord && !t.after.reached dialect .operand
  if w == "function" then n.isAnyWord || (n.isMark "*" && m.isAnyWord)
  else if w == "async" then
    names && n.isWord "function" && (m.isAnyWord || (m.isMark "*" && m.after.read.isAnyWord))
  else if w == "class" then n.isAnyWord && !n.isWordIn ["extends", "implements"]
  else if w == "var" || w == "const" then true
  else if w == "let" then names || n.isMark "[" || n.isMark "\x7b"
  else if !dialect.hasTypes then false
  else if w == "interface" || w == "enum" then n.isAnyWord
  else if w == "abstract" then n.isWord "class"
  else if w == "type" then names && (m.isMark "=" || m.opensTypes)
  else if w == "declare" then names
  else if w == "namespace" || w == "module" then
    names || (match n.lexeme with
      | .string _ => !t.after.reached dialect .operand
      | _ => false)
  else if w == "global" then n.isMark "\x7b"
  else false

/-! ## Declarations -/

/-- The ways to read a declaration. -/
def declarationWays (dialect : Dialect) (t : Reading) (role : Role) : List Way :=
  let n := t.after.read
  let function (after : Cursor) : List Way :=
    after.seek (functionGoals role (if dialect.hasTypes then .member .body else block) ++
      [.statement .afterBody])
  match t.lexeme with
  | .mark m => if m == "@" then t.after.seek [.expression .decorator, declaration role] else []
  | .word w =>
    if w == "function" then function t.after
    else if w == "async" && n.isWord "function" then function n.after
    else if w == "class" then t.after.seek (classGoals role ++ [.statement .afterBody])
    else if w == "const" && n.isWord "enum" && dialect.hasTypes then
      n.after.seek [.member (.name role), .mark "\x7b", .member .enumerators]
    else if w == "var" || w == "let" || w == "const" then
      t.after.seek [.statement (.declarators role)]
    else if !dialect.hasTypes then []
    else if w == "abstract" && n.isWord "class" then n.after.seek (classGoals role)
    else if w == "enum" then
      t.after.seek [.member (.name role), .mark "\x7b", .member .enumerators]
    else if w == "interface" then t.after.seek [.member (.name role), .member .interfaceRest]
    else if w == "type" then
      let m := n.after.read
      n.expect n.isAnyWord (role.draws [n.leaf (some .name)] ++
        (if m.opensTypes then [.mark "<", .type .parameters] else []) ++
        [.mark "=", typed { ending := .declaration }, semicolon .declaration])
    else if w == "namespace" || w == "module" then
      n.start.seek [.statement (.path n.start role), .statement .namespaceBody]
    else if w == "declare" then t.after.seek [declaration .plain]
    else if w == "global" then t.after.seek lastBlock
    else if w == "import" then t.after.seek [.statement .importClause]
    else []
  | _ => []

/-- The ways to go on after a declarator. -/
def afterDeclaratorWays (dialect : Dialect) (c : Cursor) (ending : Ending) (role : Role) :
    List Way :=
  let t := c.read
  let ended : List Goal := role.draws [.draw .leave]
  let done : List Way := if role == .loop then c.stay else c.seek (ended ++ [semicolon ending])
  if c.reached dialect ending then done
  else if t.isMark "," then t.after.seek (ended ++ [.statement (.declarators role)])
  else if t.isMark "=" then
    t.after.seek [operand { ending := .operand }, .statement (.afterDeclarator .operand role)]
  else if t.isMark ":" && dialect.hasTypes then
    t.after.seek [typed { ending := .declaration }, .statement (.afterDeclarator .declaration role)]
  else if t.isMark "!" && dialect.hasTypes then
    t.after.seek [.statement (.afterDeclarator ending role)]
  else done

/-- The ways to read the path of a namespace that started at the cursor. The name is the text as it
is written, with what stands between its words. -/
def pathWays (c start : Cursor) (role : Role) : List Way :=
  let t := c.read
  let n := t.after.read
  if t.isAnyWord && n.isMark "." then n.after.seek [.statement (.path start role)]
  else
    match t.lexeme with
    | .word _ | .string _ =>
      let label : Label :=
        { field := some .name, line := start.line, text := start.textTo t.after }
      t.after.seek (role.draws [.draw (.leaf label)])
    | _ => []

/-! ## Import and export declarations -/

/-- The ways to read an import declaration after its first word. -/
def importWays (dialect : Dialect) (t : Reading) : List Way :=
  let n := t.after.read
  match t.lexeme with
  | .string _ => t.after.seek [t.leaf (some .source), .statement .afterSource]
  | .word _ =>
    if n.isMark "=" && dialect.hasTypes then
      n.after.seek [.statement .aliasTarget, semicolon .declaration]
    else t.after.seek [.statement .importClause]
  | .mark m =>
    if m == "," || m == "*" then t.after.seek [.statement .importClause]
    else if m == "\x7b" then t.after.seek [.statement .importNames, .statement .importClause]
    else []
  | _ => []

/-- The ways to read an export declaration after its first word. -/
def exportedWays (dialect : Dialect) (c : Cursor) : List Way :=
  let t := c.readLead
  let n := t.after.read
  let other := c.seek (exportedDeclaration t)
  let star (n : Reading) : List Way :=
    let m := n.after.read
    if n.isWord "as" then m.after.seek [.statement .exportSource]
    else n.start.seek [.statement .exportSource]
  let names (brace : Reading) : List Way :=
    brace.after.seek [brace.enter .exportClause, .statement (.exportNames []), .draw .leave,
      .statement .afterExportNames]
  match t.lexeme with
  | .mark m =>
    if m == "*" then star n
    else if m == "\x7b" then names t
    else if m == "@" then t.after.seek [.expression .decorator, .statement .exported]
    else if m == "=" && dialect.hasTypes then t.after.seek expressionStatement
    else []
  | .word w =>
    if w == "default" then t.after.seek [t.leaf, .statement .exportDefault]
    else if !dialect.hasTypes then other
    else if w == "type" && n.isMark "\x7b" then names n
    else if w == "type" && n.isMark "*" then star n.after.read
    else if w == "as" && n.isWord "namespace" then
      n.after.read.expect n.after.read.isAnyWord [semicolon .declaration]
    else other
  | _ => []

/-- The ways to read what is exported by default. A function or a class without a name is an
operand, which operators may follow. -/
def exportDefaultWays (dialect : Dialect) (t : Reading) : List Way :=
  match t.lexeme with
  | .word w =>
    if w != "let" && startsDeclaration dialect t w then t.start.seek (exportedDeclaration t)
    else t.start.seek expressionStatement
  | .mark m =>
    if m == "@" then t.after.seek [.expression .decorator, .statement .exportDefault]
    else t.start.seek expressionStatement
  | _ => t.start.seek expressionStatement

/-- The goals that draw an item of an export clause, given with its last word first: a name, or a
name, a word between and a new name. -/
def specifierGoals (item : List Reading) : List Goal :=
  match item with
  | [] => []
  | last :: before =>
    let names : List Goal := match before with
      | _ :: first :: _ => [first.leaf (some .name), last.leaf (some .newName)]
      | _ => [last.leaf (some .name)]
    (before.getLastD last).enter .exportSpecifier :: names ++ [.draw .leave]

/-- The ways to read the names of an export declaration. -/
def exportNamesWays (t : Reading) (item : List Reading) : List Way :=
  match t.lexeme with
  | .word _ | .string _ => t.after.seek [.statement (.exportNames (t :: item))]
  | .mark m =>
    if m == "," then t.after.seek (specifierGoals item ++ [.statement (.exportNames [])])
    else if m == "\x7d" then t.after.seek (specifierGoals item)
    else []
  | _ => []

end DepGraph.Script
