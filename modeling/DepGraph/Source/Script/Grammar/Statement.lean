import DepGraph.Source.Script.Grammar.Declaration

/-!
# Grammar of statements

A statement that starts with no word of its own is an expression. Where a script could be read in
two ways, the likelier one comes first; once a statement has been read, nothing before its end is
reconsidered. Where a statement may have ended, but need not, no comment of a markup document can
start. What is no statement is taken for one whose semicolon is missing; where it is not even
that, reading goes on from the place that it could not get past.
-/

namespace DepGraph.Script

open Goal

/-! ## Simple statements -/

/-- The ways to read a statement that starts with one of its own words, if the word is one. -/
def keywordWays? (dialect : Dialect) (t : Reading) (w : String) : Option (List Way) :=
  let n := t.after.read
  if w == "if" then some (t.after.seek [.statement .condition, body, .statement .elseBranch])
  else if w == "while" || w == "with" then some (t.after.seek [.statement .condition, body])
  else if w == "for" then
    let after := if n.isWord "await" then n.after else t.after
    some (after.seek [.mark "(", .statement .loopHead])
  else if w == "do" then
    some (t.after.seek [body, .word "while", .statement .condition, .statement .afterLoopBody])
  else if w == "switch" then
    some (t.after.seek [.statement .condition, .mark "\x7b", .statement .clauses])
  else if w == "try" then some (t.after.seek [block, .statement .handlers])
  else if w == "return" then
    if t.after.reached dialect .declaration || n.isMarkIn [";", "\x7d"] || n.lexeme == .finish then
      some (t.after.seek [semicolon .declaration])
    else some (t.after.seek expressionStatement)
  else if w == "throw" then some (t.after.seek expressionStatement)
  else if w == "break" || w == "continue" then
    let after := if !t.after.reached dialect .declaration && n.isAnyWord then n.after else t.after
    some (after.seek [semicolon .declaration])
  else if w == "debugger" then some (t.after.seek [semicolon .declaration])
  else none

/-- The ways to read a statement that starts with a word. -/
def wordStatementWays (dialect : Dialect) (t : Reading) (w : String) : List Way :=
  let n := t.after.read
  match keywordWays? dialect t w with
  | some ways => ways
  | none =>
    if w == "import" && !(n.isMark "(" || n.isMark "." || (dialect.hasTypes && n.opensTypes)) then
      t.after.seek [t.enter .importStatement, .statement .importClause, .draw .leave]
    else if w == "export" && !t.after.reached dialect .operand &&
        (n.isAnyWord || n.isMarkIn ["*", "\x7b", "@"] || (dialect.hasTypes && n.isMark "=")) then
      t.after.seek (exportGoals t.start.line)
    else if startsDeclaration dialect t w then t.start.seek [declaration .plain]
    else if n.isMark ":" then n.after.seek [body]
    else t.start.seek expressionStatement

/-- The ways to read a statement. A brace opens a block, or an object where its first field could
be a statement after a label, too. -/
def statementOfWays (dialect : Dialect) (t : Reading) : List Way :=
  match t.lexeme with
  | .word w => wordStatementWays dialect t w
  | .mark m =>
    if m == ";" then t.after.stay
    else if m == "\x7b" then
      let n := t.after.readLead
      let object := if startsFields t.after then t.start.seek expressionStatement else []
      if n.startsName && n.after.read.isMark ":" then object ++ t.start.seek lastBlock
      else t.start.seek lastBlock ++ object
    else if m == "@" then t.start.seek [.statement (.decorated t.start.line)]
    else t.start.seek expressionStatement
  | .finish => []
  | _ => t.start.seek expressionStatement

/-! ## All of them -/

/-- The ways to reach a part of a statement. The flag says that a semicolon may be missing. -/
def statementWays (dialect : Dialect) (forgiving : Bool) (choices : Nat) (c : Cursor) :
    StatementGoal → List Way
  | .program =>
    let t := c.readLead
    let next : List Goal := [.commit choices, .statement .program]
    if t.lexeme == .finish then c.stay
    else
      c.seek (body :: next) ++ c.seek ([.forgive true, body, .forgive false] ++ next) ++
        (if t.isMarkIn ["/", "\"", "'"] then t.start.lineEnd else t.after).seek
          [.recover, .statement .program]
  | .statement => statementOfWays dialect c.readLead
  | .statements =>
    let t := c.readLead
    if t.isMark "\x7d" then t.after.stay
    else if t.lexeme == .finish then c.stay
    else c.seek [body, .commit choices, .statement .statements]
  | .block =>
    let t := c.read
    t.expect (t.isMark "\x7b")
      [t.enter, .statement .statements, .draw .leave]
  | .afterBody =>
    let start := c.skip
    if !c.reached dialect .declaration && (start.startsWith "<!--" || start.startsWith "-->") then
      start.next.stay
    else c.stay
  | .semicolon ending =>
    let t := c.read
    if c.reached dialect ending then c.stay
    else if t.isMark ";" then t.after.stay
    else if t.isMark "\x7d" || t.lexeme == .finish then c.stay
    else if forgiving then c.seek [.statement .afterBody]
    else []
  | .declarators role =>
    let t := c.readLead
    let rest : Goal := .statement (.afterDeclarator .declaration role)
    let pattern (goal : ExpressionGoal) : List Way :=
      t.after.seek (role.draws [t.enter .variableDeclarator, t.enter .other (some .name)] ++
        .expression goal :: role.draws [.draw .leave] ++ [rest])
    match t.lexeme with
    | .word _ =>
      t.after.seek (role.draws [t.enter .variableDeclarator, t.leaf (some .name)] ++ [rest])
    | .mark m =>
      if m == "\x7b" then pattern .fields
      else if m == "[" then pattern .elements
      else []
    | _ => []
  | .afterDeclarator ending role => afterDeclaratorWays dialect c ending role
  | .declaration role => declarationWays dialect c.readLead role
  | .path start role => pathWays c start role
  | .namespaceBody =>
    if c.read.isMark "\x7b" then c.seek lastBlock else c.stay
  | .decorated line =>
    let t := c.readLead
    if t.isMark "@" then t.after.seek [.expression .decorator, .statement (.decorated line)]
    else if t.isWord "export" then t.after.seek (exportGoals line)
    else c.seek [declaration .plain]
  | .condition => c.seek (.mark "(" :: toParenthesis)
  | .elseBranch =>
    let t := c.read
    if t.isWord "else" then t.after.seek [body] else c.stay
  | .loopHead =>
    let t := c.readLead
    let n := t.after.read
    if t.isMark ";" then t.after.seek [.statement .loopTest]
    else if t.isWordIn ["var", "const"] ||
        (t.isWord "let" && (n.isAnyWord || n.isMark "[" || n.isMark "\x7b")) then
      t.after.seek [.statement (.declarators .loop), .statement .afterLoopHead]
    else c.seek [innerOperand, .statement .afterLoopHead]
  | .afterLoopHead =>
    let t := c.read
    if t.isWord "of" || t.isWord "in" then t.after.seek (toParenthesis ++ [body])
    else if t.isMark ";" then t.after.seek [.statement .loopTest]
    else t.expect (t.isMark ")") [body]
  | .loopTest =>
    let t := c.readLead
    if t.isMark ";" then t.after.seek [.statement .loopStep]
    else c.seek [innerOperand, .mark ";", .statement .loopStep]
  | .loopStep =>
    let t := c.readLead
    if t.isMark ")" then t.after.seek [body] else c.seek (toParenthesis ++ [body])
  | .afterLoopBody =>
    let t := c.read
    if t.isMark ";" then t.after.stay else c.stay
  | .clauses =>
    let t := c.readLead
    let next : Goal := .statement .clauses
    if t.isMark "\x7d" then t.after.stay
    else if t.lexeme == .finish then c.stay
    else if t.isWord "case" then
      t.after.seek [operand { commas := true, colon := true }, .mark ":", next]
    else if t.isWord "default" then t.after.seek [.mark ":", next]
    else c.seek [body, .commit choices, next]
  | .handlers =>
    let t := c.read
    let n := t.after.read
    if t.isWord "catch" then
      if n.isMark "(" then n.after.seek [.expression .parameters, block, .statement .handlers]
      else t.after.seek [block, .statement .handlers]
    else if t.isWord "finally" then t.after.seek lastBlock
    else c.seek [.statement .afterBody]
  | .importClause => importWays dialect c.read
  | .importNames =>
    let t := c.read
    if t.isMark "\x7d" then t.after.stay
    else
      match t.lexeme with
      | .word _ | .string _ => t.after.seek [.statement .importNames]
      | _ => t.expect (t.isMark ",") [.statement .importNames]
  | .aliasTarget =>
    let t := c.read
    let n := t.after.read
    if n.isMark "." then n.after.seek [.statement .aliasTarget]
    else if t.isWord "require" && n.isMark "(" then n.after.seek [.expression (.arguments false)]
    else t.expect t.isAnyWord []
  | .afterSource =>
    let t := c.read
    if t.isWordIn ["with", "assert"] && !c.reached dialect .declaration then
      t.after.seek [.mark "\x7b", .expression .fields, semicolon .declaration]
    else c.seek [semicolon .declaration]
  | .exported => exportedWays dialect c
  | .exportDefault => exportDefaultWays dialect c.readLead
  | .exportNames last => exportNamesWays c.read last
  | .afterExportNames =>
    if c.reached dialect .declaration then c.stay
    else if c.read.isWord "from" then c.seek [.statement .exportSource]
    else c.seek [semicolon .declaration]
  | .exportSource =>
    let t := c.read
    let n := t.after.read
    match t.isWord "from", n.lexeme with
    | true, .string _ => n.after.seek [n.leaf (some .source), .statement .afterSource]
    | _, _ => []

end DepGraph.Script
