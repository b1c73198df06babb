import DepGraph.Source.Script.Grammar.Expression

/-!
# Grammar of types

A type is read like an expression: a type by itself and what follows it. An angle bracket that
closes a list is one lexeme here, even where two of them stand together.

An import in a type, and a call that `typeof` asks about, load a module like any other call.
-/

namespace DepGraph.Script

open Goal

/-- Words before a type that say something about it. -/
def typeOperatorWords : List String :=
  ["keyof", "readonly"]

/-- A type between brackets, where no line break ends it. -/
def innerType : Goal := typed {}

/-- Can the parameters of a function follow the parenthesis before the cursor, as far as the first
of them shows? -/
def startsParameters (c : Cursor) : Bool :=
  let t := c.readLead
  let n := t.after.read
  match t.lexeme with
  | .word w =>
    n.isMarkIn [")", ",", ":", "="] ||
      (n.isMark "?" && n.after.read.isMarkIn [")", ",", ":", "="]) ||
      (modifierWords.contains w && (n.isAnyWord || n.isMarkIn ["\x7b", "["]))
  | .mark m => [")", "...", "@", "\x7b", "["].contains m
  | _ => false

/-- The ways to read a type that starts with a word. -/
def wordTypeWays (dialect : Dialect) (p : TypePlace) (t : Reading) (w : String) : List Way :=
  let n := t.after.read
  let rest : Goal := .type (.suffix p)
  let inherited : TypePlace := { p with leading := false }
  if typeOperatorWords.contains w then t.after.seek [typed inherited]
  else if w == "unique" && n.isWord "symbol" then n.after.seek [rest]
  else if w == "infer" && n.isAnyWord then n.after.seek [rest]
  else if w == "asserts" && n.isAnyWord && !n.isWord "is" && !t.after.reached dialect p.ending then
    n.after.seek [rest]
  else if w == "abstract" && n.isWord "new" then
    n.after.seek [.type .construction, .mark "=>", typed inherited]
  else if w == "new" && (n.isMark "(" || n.opensTypes) then
    t.after.seek [.type .construction, .mark "=>", typed inherited]
  else if w == "typeof" then t.after.seek [.type (.query p)]
  else if w == "import" && n.isMark "(" then
    if p.leading then []
    else n.after.seek (call t ++ loadArguments ++ [rest])
  else t.after.seek [rest]

/-- The ways to read a type that starts with a mark. -/
def markTypeWays (choices : Nat) (p : TypePlace) (t : Reading) (m : String) : List Way :=
  let rest : Goal := .type (.suffix p)
  let inherited : TypePlace := { p with leading := false }
  if m == "(" then
    (if startsParameters t.after then
      t.after.seek [.expression .parameters, .mark "=>", .commit choices, typed inherited]
      else []) ++ t.after.seek [typed { leading := p.leading }, .mark ")", rest]
  else if m == "[" then t.after.seek [.type (.tuple p.leading), rest]
  else if m == "\x7b" then t.after.seek [.type .members, rest]
  else if m == "\x60" then t.after.seek [.type .template, rest]
  else if m == "*" then t.after.seek [rest]
  else if m == "-" || m == "|" || m == "&" || m == "?" then t.after.seek [typed inherited]
  else if t.opensTypes then
    t.afterFirst.seek [.type .parameters, .mark "(", .expression .parameters, .mark "=>",
      typed inherited]
  else []

/-- The ways to go on after a type. -/
def typeSuffixWays (dialect : Dialect) (c : Cursor) (p : TypePlace) : List Way :=
  let t := c.read
  let n := t.after.read
  let rest : Goal := .type (.suffix p)
  let inherited : TypePlace := { p with leading := false }
  if c.reached dialect p.ending then c.stay
  else
    match t.lexeme with
    | .word w =>
      if w == "extends" then t.after.seek [innerType, .type (.condition inherited)]
      else if w == "is" then t.after.seek [typed inherited]
      else c.stay
    | .mark m =>
      if m == "." then t.after.seek [.expression .memberName, rest]
      else if m == "[" then
        if n.isMark "]" then n.after.seek [rest] else t.after.seek [innerType, .mark "]", rest]
      else if m == "|" || m == "&" then t.after.seek [typed inherited]
      else if t.opensTypes then t.afterFirst.seek [.type (.arguments p.leading), rest] ++ c.stay
      else c.stay
    | _ => c.stay

/-- The ways to go on after the type that another one extends. It may do so as the constraint of an
inferred type, which decides nothing. -/
def conditionWays (c : Cursor) (p : TypePlace) : List Way :=
  let t := c.read
  let n := t.after.read
  if t.isMark "?" && !n.isMarkIn ["]", ","] then t.after.seek [innerType, .mark ":", typed p]
  else c.stay

/-- The way past an angle bracket that closes a list of types. -/
def closeTypes (t : Reading) : List Way :=
  if t.start.startsWith ">" then t.afterFirst.stay else []

/-- The ways to go on after a name that `typeof` asks about. -/
def afterQueryWays (dialect : Dialect) (c : Cursor) (p : TypePlace) : List Way :=
  let t := c.read
  if c.reached dialect p.ending then c.stay
  else if t.isMark "." || t.isMark "?." then
    t.after.seek [.expression .memberName, .type (.afterQuery p)]
  else if t.isMark "(" then
    if p.leading then [] else t.after.seek [.expression (.arguments false), .type (.afterQuery p)]
  else c.seek [.type (.suffix p)]

/-- The ways to read what `typeof` asks about. -/
def queryWays (dialect : Dialect) (c : Cursor) (p : TypePlace) : List Way :=
  let t := c.readLead
  let n := t.after.read
  if t.isWordIn ["import", "require"] && n.isMark "(" &&
      (t.isWord "import" || !t.after.reached dialect p.ending) then
    if p.leading then []
    else n.after.seek (call t ++ loadArguments ++ [.type (.afterQuery p)])
  else t.expect t.isAnyWord [.type (.afterQuery p)]

/-- Is the lexeme, with the one after it, the name of an item of a tuple? Then the colon ends it. -/
def itemColon? (t : Reading) : Option Cursor :=
  let n := t.after.read
  let m := n.after.read
  if !t.isAnyWord then none
  else if n.isMark ":" then some n.after
  else if n.isMark "?" && m.isMark ":" then some m.after
  else none

/-- The ways to read a member of an object type. -/
def typeMemberWays (t : Reading) : List Way :=
  let n := t.after.read
  match t.lexeme with
  | .word w =>
    if w == "new" && (n.isMark "(" || n.opensTypes) then t.after.seek [.type .member]
    else if modifierWords.contains w && n.startsName then t.after.seek [.type .member]
    else t.after.seek [.type .afterMemberName]
  | .mark m =>
    if m == "+" || m == "-" then t.after.seek [.type .member]
    else if m == "[" then t.after.seek [.type .index, .type .afterMemberName]
    else if m == "(" || t.opensTypes then t.start.seek [.type .afterMemberName]
    else []
  | .finish => []
  | _ => t.after.seek [.type .afterMemberName]

/-- Is a word `export` among the members of an object type the name of one of them, given what
follows? -/
def namesMember (dialect : Dialect) (after : Cursor) : Bool :=
  after.reached dialect .declaration ||
    after.read.isMarkIn [":", "?", "(", "<", ",", ";", "\x7d"]

/-- The ways to reach a part of a type. -/
def typeWays (dialect : Dialect) (choices : Nat) (c : Cursor) : TypeGoal → List Way
  | .type p =>
    let t := c.readLead
    match t.lexeme with
    | .word w => wordTypeWays dialect p t w
    | .mark m => markTypeWays choices p t m
    | .finish => []
    | _ => t.after.seek [.type (.suffix p)]
  | .suffix p => typeSuffixWays dialect c p
  | .condition p => conditionWays c p
  | .construction =>
    let t := c.read
    if t.opensTypes then t.afterFirst.seek [.type .parameters, .type .construction]
    else t.expect (t.isMark "(") [.expression .parameters]
  | .arguments leading => c.seek [typed { leading }, .type .afterArgument]
  | .afterArgument =>
    let t := c.read
    let n := t.after.readLead
    if t.isMark "," then
      if n.start.startsWith ">" then closeTypes n
      else t.after.seek [innerType, .type .afterArgument]
    else closeTypes t
  | .parameters =>
    let t := c.readLead
    let n := t.after.read
    if t.isMark "," then t.after.seek [.type .parameters]
    else if t.isWordIn ["const", "in", "out"] && n.isAnyWord && !n.isWord "extends" then
      t.after.seek [.type .parameters]
    else if t.isAnyWord then t.after.seek [.type .afterParameter]
    else closeTypes t
  | .afterParameter =>
    let t := c.read
    if t.isWord "extends" || t.isMark "=" then t.after.seek [innerType, .type .afterParameter]
    else if t.isMark "," then t.after.seek [.type .parameters]
    else closeTypes t
  | .tuple leading =>
    let t := c.readLead
    if t.isMark "]" then t.after.stay
    else if t.isMark "," then t.after.seek [.type (.tuple false)]
    else if t.isMark "..." then t.after.seek [.type (.tuple false)]
    else
      match itemColon? t with
      | some after => after.seek [innerType, .type .afterItem]
      | none => c.seek [typed { leading }, .type .afterItem]
  | .afterItem =>
    let t := c.read
    if t.isMark "," then t.after.seek [.type (.tuple false)]
    else if t.isMark "?" then t.after.seek [.type .afterItem]
    else t.expect (t.isMark "]") []
  | .template => c.templateWays innerType (.type .template)
  | .query p => queryWays dialect c p
  | .afterQuery p => afterQueryWays dialect c p
  | .members =>
    let t := c.readLead
    if t.isMark "\x7d" then t.after.stay
    else if t.isMark "," || t.isMark ";" then t.after.seek [.type .members]
    else if t.isWord "export" && !namesMember dialect t.after then
      t.after.seek (exportGoals t.start.line ++ [.type .members])
    else c.seek [.type .member, .commit choices, .type .members]
  | .member => typeMemberWays c.readLead
  | .afterMemberName =>
    let t := c.read
    if t.isMarkIn ["?", "!", "+", "-"] then t.after.seek [.type .afterMemberName]
    else if c.reached dialect .declaration then c.seek [.type .afterMember]
    else if t.isMark "(" || t.opensTypes then
      c.seek [.member (.signature .declaration), .type .afterMember]
    else if t.isMark ":" then t.after.seek [typed { ending := .declaration }, .type .afterMember]
    else c.seek [.type .afterMember]
  | .afterMember =>
    let t := c.read
    if t.isMark "," || t.isMark ";" then t.after.stay
    else if t.isMark "\x7d" || c.reached dialect .declaration then c.stay
    else []
  | .index =>
    let t := c.readLead
    let n := t.after.read
    if t.isAnyWord && n.isMark ":" then n.after.seek [innerType, .mark "]"]
    else if t.isAnyWord && n.isWord "in" && dialect.hasTypes then
      n.after.seek [innerType, .type .afterIndex]
    else c.seek [innerOperand, .mark "]"]
  | .afterIndex =>
    let t := c.read
    if t.isWord "as" then t.after.seek [innerType, .mark "]"]
    else t.expect (t.isMark "]") []

end DepGraph.Script
