import DepGraph.Source.Script.Goal

/-!
# Grammar of expressions

An expression is an operand and what follows it: operators with further operands, members, calls
and indices. How tightly an operator binds makes no difference to what is called, so all of them are
read alike. Parentheses, arrays and objects are read so that they may turn out to hold the
parameters of a function or the parts of a pattern.
-/

namespace DepGraph.Script

/-- Operators between two operands, assignments among them. -/
def binaryMarks : List String :=
  ["+", "-", "*", "/", "%", "**", "<", ">", "<=", ">=", "==", "!=", "===", "!==", "<<", ">>", ">>>",
    "&", "|", "^", "&&", "||", "??", "=", "+=", "-=", "*=", "/=", "%=", "**=", "<<=", ">>=", ">>>=",
    "&=", "|=", "^=", "&&=", "||=", "??="]

/-- Operators before an operand. -/
def unaryMarks : List String :=
  ["!", "~", "+", "-", "++", "--"]

/-- Words that are operators before an operand. -/
def unaryWords : List String :=
  ["await", "typeof", "void", "delete"]

/-- Words that are operators between two operands, or that end an operand before a type. -/
def operatorWords : List String :=
  ["in", "instanceof", "as", "satisfies", "of"]

/-- Words before the name of a member or a parameter that say more about it. -/
def modifierWords : List String :=
  ["static", "async", "get", "set", "public", "private", "protected", "readonly", "declare",
    "abstract", "override", "accessor"]

/-- Marks that follow type arguments but no operand after a comparison. -/
def typedOperandMarks : List String :=
  ["(", ")", "]", "\x7d", ",", ";", ":", ".", "?", "?.", "*", "%", "**", ">", ">>", ">>>", ">=",
    "=", "==", "===", "!=", "!==", "&", "&&", "|", "||", "^", "??", "=>"]

/-- Do type parameters follow the angle bracket before the cursor? In a dialect with markup only
what cannot be the name of an element and its attributes is taken for them. -/
def startsTypeParameters (dialect : Dialect) (c : Cursor) : Bool :=
  let first := c.readLead
  let next := first.after.read
  first.isAnyWord &&
    (next.isMark "," || next.isWord "extends" || (first.isWord "const" && next.isAnyWord) ||
      (!dialect.hasMarkup && next.isMark "="))

namespace Goal

/-- An expression. -/
def operand (p : Place) : Goal := .expression (.operand p)

/-- What follows an operand. -/
def suffix (p : Place) : Goal := .expression (.suffix p)

/-- Expressions between brackets, where no line break ends them. -/
def innerOperand : Goal := operand { commas := true }

/-- A block of statements. -/
def block : Goal := .statement .block

/-- A type. -/
def typed (p : TypePlace) : Goal := .type (.type p)

/-- An export declaration after its first word, with the node that stands for it. -/
def exportGoals (line : Nat) : List Goal :=
  [.draw (.enter { kind := .exportStatement, line }), .statement .exported, .draw .leave]

/-- A call that loads a module, after the word that is called and up to its arguments. -/
def call (loader : Reading) : List Goal :=
  [loader.enter .callExpression, loader.leaf (some .function)]

/-- The rest of the arguments of a call that loads a module, and its end. -/
def loadArguments : List Goal := [.expression .loadArguments, .draw .leave]

end Goal

/-- What follows the bracket that starts the arguments of a call, an index or a template. -/
def bracketGoals? (m : String) : Option (List Goal) :=
  if m == "(" then some [.expression (.arguments false)]
  else if m == "[" then some [.innerOperand, .mark "]"]
  else if m == "\x60" then some [.expression .template]
  else none

/-- The rest of a function after its keyword. -/
def functionGoals (role : Role) (body : Goal) : List Goal :=
  [.member (.name role), .member (.signature .signature), body]

/-- The rest of a class after its keyword. -/
def classGoals (role : Role) : List Goal :=
  [.member (.name role), .member (.classRest false)]

open Goal

/-- The ways to read an operand that starts with a word. -/
def wordOperandWays (dialect : Dialect) (p : Place) (t : Reading) (w : String) : List Way :=
  let n := t.after.read
  let ends := t.after.reached dialect p.ending
  let plain := t.after.seek [suffix p]
  if n.isMark "=>" then n.after.seek [.expression (.arrowBody p)]
  else if w == "function" then t.after.seek (functionGoals .plain block ++ [suffix p])
  else if w == "class" then t.after.seek (classGoals .plain ++ [suffix p])
  else if w == "require" then t.after.seek [.expression (.called t p)]
  else if w == "import" then
    if n.isMark "." then plain else t.after.seek [.expression (.called t p)]
  else if w == "new" then
    if n.isMark "." then plain
    else if dialect.hasTypes && ends then plain
    else t.after.seek [.expression (.created p.ending), suffix p]
  else if w == "async" && !ends then
    if n.isWord "function" then n.after.seek (functionGoals .plain block ++ [suffix p])
    else if n.isMark "(" then
      n.after.seek [.expression .parameters, .expression (.afterParameters p)]
    else if dialect.hasTypes && n.opensTypes then
      n.afterFirst.seek [.type .parameters, .mark "(", .expression .parameters,
        .expression (.afterParameters p)] ++ plain
    else if n.isAnyWord && n.after.read.isMark "=>" then
      n.after.read.after.seek [.expression (.arrowBody p)]
    else plain
  else if w == "yield" then
    if ends then plain
    else if n.isMark "*" then n.after.seek [operand p]
    else if n.mark?.any (bracketGoals? · |>.isSome) then t.after.seek [operand p]
    else t.after.seek [operand p] ++ plain
  else if unaryWords.contains w then t.after.seek [operand p]
  else if w == "using" && dialect.hasTypes && !ends && n.isAnyWord && !n.isWordIn operatorWords then
    t.after.seek [operand p]
  else plain

/-- The ways to read an operand that starts with a mark. -/
def markOperandWays (dialect : Dialect) (p : Place) (t : Reading) (m : String) : List Way :=
  if m == "(" then t.after.seek [.expression .parameters, .expression (.afterParameters p)]
  else if m == "[" then t.after.seek [.expression .elements, suffix p]
  else if m == "\x7b" then t.after.seek [.expression .fields, suffix p]
  else if m == "\x60" then t.after.seek [.expression .template, suffix p]
  else if m == "@" then t.after.seek [.expression .decorator, operand p]
  else if unaryMarks.contains m then t.after.seek [operand p]
  else if t.opensTypes then
    if dialect.hasMarkup && !(dialect.hasTypes && startsTypeParameters dialect t.afterFirst) then
      t.afterFirst.seek [.markup .element, suffix p]
    else if startsTypeParameters dialect t.afterFirst then
      t.afterFirst.seek [.type .parameters, operand p]
    else t.afterFirst.seek [.type (.arguments false), operand p]
  else
    match t.start.afterPattern? with
    | some after => after.seek [suffix p]
    | none => []

/-- The ways to go on after an operand with a mark. -/
def markSuffixWays (dialect : Dialect) (choices : Nat) (c : Cursor) (p : Place) (t : Reading)
    (m : String) : List Way :=
  let n := t.after.read
  if let some goals := bracketGoals? m then t.after.seek (goals ++ [suffix p])
  else if m == "." then t.after.seek [.expression .memberName, suffix p]
  else if m == "?." then
    if let some goals := n.mark?.bind bracketGoals? then n.after.seek (goals ++ [suffix p])
    else if dialect.hasTypes && n.opensTypes then
      n.afterFirst.seek
        [.type (.arguments false), .mark "(", .expression (.arguments false), suffix p]
    else t.after.seek [.expression .memberName, suffix p]
  else if m == "++" || m == "--" then t.after.seek [suffix p]
  else if m == "!" && dialect.hasTypes then t.after.seek [suffix p]
  else if m == "?" then
    if dialect.hasTypes && n.isMarkIn [":", ")", ",", "="] then c.stay
    else t.after.seek [operand { colon := true }, .mark ":", operand p]
  else if m == "," then if p.commas then t.after.seek [operand p] else c.stay
  else if m == "<" && dialect.hasTypes then
    t.after.seek
        [.type (.arguments true), .expression (.closedTypes p), .commit choices, suffix p] ++
      t.after.seek [operand p]
  else if binaryMarks.contains m then t.after.seek [operand p]
  else c.stay

/-- The ways to go on after an operand. -/
def suffixWays (dialect : Dialect) (choices : Nat) (c : Cursor) (p : Place) : List Way :=
  if c.reached dialect p.ending then c.stay
  else
    let t := c.read
    match t.lexeme with
    | .mark m => markSuffixWays dialect choices c p t m
    | .word w =>
      if w == "in" || w == "instanceof" then t.after.seek [operand p]
      else if dialect.hasTypes && (w == "as" || w == "satisfies") then
        t.after.seek [typed { ending := p.ending }, suffix p]
      else c.stay
    | _ => c.stay

/-- The ways to go on after a word that loads a module where it is called. -/
def calledWays (dialect : Dialect) (choices : Nat) (c : Cursor) (loader : Reading) (p : Place) :
    List Way :=
  let t := c.read
  let n := t.after.read
  let plain := c.seek [suffix p]
  if c.reached dialect p.ending then plain
  else if t.isMark "(" then t.after.seek (call loader ++ loadArguments ++ [suffix p])
  else if t.isMark "?." && n.isMark "(" then
    n.after.seek (call loader ++ loadArguments ++ [suffix p])
  else if t.isMark "?." && dialect.hasTypes && n.opensTypes then
    n.afterFirst.seek
      (call loader ++ [.type (.arguments false), .mark "("] ++ loadArguments ++ [suffix p])
  else if t.isMark "<" && dialect.hasTypes then
    t.after.seek (call loader ++ [.type (.arguments (loader.isWord "require")),
      .expression (.closedTypes p), .mark "(", .commit choices] ++ loadArguments ++ [suffix p]) ++
      plain
  else plain

/-- The ways to read the class after `new`. -/
def createdWays (dialect : Dialect) (c : Cursor) (ending : Ending) : List Way :=
  let t := c.readLead
  let n := t.after.read
  let rest : Goal := .expression (.creation ending)
  match t.lexeme with
  | .word w =>
    if w == "new" && !dialect.hasTypes then t.after.seek [.expression (.created ending), rest]
    else if w == "function" then t.after.seek (functionGoals .plain block ++ [rest])
    else if w == "class" then t.after.seek (classGoals .plain ++ [rest])
    else if w == "import" && n.isMark "(" then
      n.after.seek (call t ++ loadArguments ++ [rest])
    else t.after.seek [rest]
  | .mark m =>
    if m == "(" then t.after.seek [.expression .parameters, rest]
    else if m == "[" then t.after.seek [.expression .elements, rest]
    else if m == "\x7b" then t.after.seek [.expression .fields, rest]
    else if m == "\x60" then t.after.seek [.expression .template, rest]
    else []
  | .finish => []
  | _ => t.after.seek [rest]

/-- The ways to go on after the class after `new`. -/
def creationWays (dialect : Dialect) (choices : Nat) (c : Cursor) (ending : Ending) : List Way :=
  let t := c.read
  let rest : Goal := .expression (.creation ending)
  if c.reached dialect ending then c.stay
  else
    match t.lexeme with
    | .mark m =>
      if m == "(" then t.after.seek [.expression (.arguments false)]
      else if let some goals := bracketGoals? m then t.after.seek (goals ++ [rest])
      else if m == "." || m == "?." then t.after.seek [.expression .memberName, rest]
      else if m == "!" && dialect.hasTypes then t.after.seek [rest]
      else if m == "<" && dialect.hasTypes then
        t.after.seek [.type (.arguments false), .expression (.closedTypes { ending }),
          .commit choices, rest] ++ c.stay
      else c.stay
    | _ => c.stay

/-- Does what follows type arguments allow for them? -/
def allowsTypes (dialect : Dialect) (c : Cursor) (p : Place) : Bool :=
  let t := c.read
  !(c.startsWith ">" || c.startsWith "=") &&
    (c.reached dialect p.ending || t.isMarkIn typedOperandMarks || t.isWordIn operatorWords ||
      t.lexeme == .finish || (p.base && (t.isMark "\x7b" || t.isWord "implements")))

/-- The ways to go on in a list of parameters. -/
def parameterWays (dialect : Dialect) (c : Cursor) : List Way :=
  let t := c.readLead
  let n := t.after.read
  if t.isMark ")" then t.after.stay
  else if t.isMark "," then t.after.seek [.expression .parameters]
  else if t.isMark "@" then t.after.seek [.expression .decorator, .expression .parameters]
  else if t.isMark "..." then t.after.seek [operand {}, .expression .afterParameter]
  else if dialect.hasTypes && t.isWordIn modifierWords && !t.isWord "async" &&
      (n.isAnyWord && !n.isWordIn operatorWords) then
    t.after.seek [.expression .parameters]
  else c.seek [operand { commas := false }, .expression .afterParameter]

/-- Do the fields of an object follow the brace before the cursor, rather than statements? -/
def startsFields (c : Cursor) : Bool :=
  let t := c.readLead
  t.isMark "..." || t.isMark "[" ||
    (t.startsName && t.after.read.isMarkIn [":", ",", "=", "\x7d"])

/-- The ways to go on in the fields of an object. -/
def fieldWays (c : Cursor) : List Way :=
  let t := c.readLead
  let n := t.after.read
  match t.lexeme with
  | .word w =>
    if modifierWords.contains w && n.startsName then t.after.seek [.expression .field]
    else t.after.seek [.expression .afterFieldName]
  | .mark m =>
    if m == "*" then t.after.seek [.expression .field]
    else if m == "[" then t.after.seek [innerOperand, .mark "]", .expression .afterFieldName]
    else []
  | .finish => []
  | _ => t.after.seek [.expression .afterFieldName]

/-- The ways to reach a part of an expression. -/
def expressionWays (dialect : Dialect) (choices : Nat) (c : Cursor) : ExpressionGoal → List Way
  | .operand p =>
    let t := c.readLead
    match t.lexeme with
    | .word w => wordOperandWays dialect p t w
    | .mark m => markOperandWays dialect p t m
    | .finish => []
    | _ => t.after.seek [suffix p]
  | .suffix p => suffixWays dialect choices c p
  | .called loader p => calledWays dialect choices c loader p
  | .created ending => createdWays dialect c ending
  | .creation ending => creationWays dialect choices c ending
  | .afterParameters p =>
    let t := c.read
    if t.isMark "=>" then t.after.seek [.expression (.arrowBody p)]
    else if t.isMark ":" && dialect.hasTypes then
      t.after.seek [typed {}, .mark "=>", .expression (.arrowBody p)] ++ c.seek [suffix p]
    else c.seek [suffix p]
  | .arrowBody p =>
    let t := c.readLead
    if t.isMark "\x7b" then
      c.seek [block, .commit choices, suffix p] ++
        (if startsFields t.after then c.seek [operand p] else [])
    else c.seek [operand p]
  | .loadArguments =>
    -- the parenthesis stands before the cursor, so the line is still its own
    c.seek [.draw (.enter { field := some .arguments, line := c.line }),
      .expression (.arguments true), .draw .leave]
  | .arguments loads =>
    let t := c.readLead
    let n := t.after.read
    match t.lexeme with
    | .string _ =>
      if loads && n.isMarkIn [",", ")"] then
        t.after.seek [t.leaf, .expression (.afterArgument loads)]
      else c.seek [operand {}, .expression (.afterArgument loads)]
    | _ =>
      if t.isMark ")" then t.after.stay
      else if t.isMark "," then t.after.seek [.expression (.arguments loads)]
      else if t.isMark "..." then t.after.seek [operand {}, .expression (.afterArgument loads)]
      else c.seek [operand {}, .expression (.afterArgument loads)]
  | .afterArgument loads =>
    let t := c.read
    if t.isMark "," then t.after.seek [.expression (.arguments loads)]
    else t.expect (t.isMark ")") []
  | .parameters => parameterWays dialect c
  | .afterParameter =>
    let t := c.read
    if t.isMark ")" then t.after.stay
    else if t.isMark "," then t.after.seek [.expression .parameters]
    else if t.isMark "=" then t.after.seek [operand {}, .expression .afterParameter]
    else if t.isMark "?" && dialect.hasTypes then t.after.seek [.expression .afterParameter]
    else if t.isMark ":" && dialect.hasTypes then
      t.after.seek [typed {}, .expression .afterParameter]
    else []
  | .elements =>
    let t := c.readLead
    if t.isMark "]" then t.after.stay
    else if t.isMark "," then t.after.seek [.expression .elements]
    else if t.isMark "..." then t.after.seek [operand {}, .expression .afterElement]
    else c.seek [operand {}, .expression .afterElement]
  | .afterElement =>
    let t := c.read
    if t.isMark "," then t.after.seek [.expression .elements]
    else t.expect (t.isMark "]") []
  | .fields =>
    let t := c.readLead
    if t.isMark "\x7d" then t.after.stay
    else if t.isMark "," then t.after.seek [.expression .fields]
    else if t.isMark "..." then t.after.seek [operand {}, .expression .afterField]
    else c.seek [.expression .field]
  | .field => fieldWays c
  | .afterFieldName =>
    let t := c.read
    if t.isMark ":" || t.isMark "=" then t.after.seek [operand {}, .expression .afterField]
    else if t.isMark "(" || (dialect.hasTypes && t.opensTypes) then
      c.seek [.member (.signature .enclosed), block, .expression .afterField]
    else if t.isMark "?" && dialect.hasTypes then t.after.seek [.expression .afterFieldName]
    else c.seek [.expression .afterField]
  | .afterField =>
    let t := c.read
    if t.isMark "," then t.after.seek [.expression .fields]
    else t.expect (t.isMark "\x7d") []
  | .template => c.templateWays innerOperand (.expression .template)
  | .decorator =>
    let t := c.read
    let n := t.after.read
    if t.isMark "(" then t.after.seek [.expression .parameters]
    else if t.isWord "require" && n.isMark "(" then
      n.after.seek (call t ++ loadArguments)
    else t.expect t.isAnyWord [.expression .afterDecorator]
  | .afterDecorator =>
    let t := c.read
    if t.isMark "." then t.after.seek [.expression .memberName, .expression .afterDecorator]
    else if t.isMark "(" then t.after.seek [.expression (.arguments false)]
    else if t.opensTypes && dialect.hasTypes then
      t.afterFirst.seek [.type (.arguments false), .expression .afterDecorator]
    else c.stay
  | .closedTypes p => if allowsTypes dialect c p then c.stay else []
  | .memberName =>
    let t := c.read
    t.expect t.isAnyWord []

end DepGraph.Script
