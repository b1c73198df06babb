import DepGraph.Source.Script.Grammar.Types

/-!
# Grammar of functions and classes

Heads and bodies of functions, bases and members of classes, members of interfaces and of
enumerations. A member may bear any word for its name, also one that starts a statement elsewhere.
-/

namespace DepGraph.Script

open Goal

/-- The goals that draw a part of a declaration, where that is exported. -/
def Role.draws (role : Role) (goals : List Goal) : List Goal :=
  if role == .exported then goals else []

/-- The ways to read the rest of a class after its name. -/
def classRestWays (dialect : Dialect) (c : Cursor) (types : Bool) : List Way :=
  let t := c.read
  let base : Goal := operand { base := true }
  if t.isMark "\x7b" then
    t.after.seek [t.enter, .member .members, .draw .leave]
  else if t.isWord "extends" then t.after.seek [base, .member (.classRest false)]
  else if !dialect.hasTypes then []
  else if t.opensTypes then t.afterFirst.seek [.type .parameters, .member (.classRest false)]
  else if t.isWord "implements" then t.after.seek [innerType, .member (.classRest true)]
  else if t.isMark "," then
    t.after.seek [if types then innerType else base, .member (.classRest types)]
  else []

/-- The ways to read a member of a class. -/
def classMemberWays (t : Reading) : List Way :=
  let n := t.after.read
  match t.lexeme with
  | .word w =>
    if w == "static" && n.isMark "\x7b" then t.after.seek [block]
    else if modifierWords.contains w && n.startsName then t.after.seek [.member .member]
    else t.after.seek [.member .afterMemberName]
  | .mark m =>
    if m == "@" then t.after.seek [.expression .decorator, .member .member]
    else if m == "*" then t.after.seek [.member .member]
    else if m == "[" then t.after.seek [.type .index, .member .afterMemberName]
    else []
  | .finish => []
  | _ => t.after.seek [.member .afterMemberName]

/-- The ways to go on after the name of a member of a class. -/
def afterMemberNameWays (dialect : Dialect) (c : Cursor) : List Way :=
  let t := c.read
  let rest : Goal := .member .afterMemberName
  if c.reached dialect .declaration then c.stay
  else if t.isMark "(" || (dialect.hasTypes && t.opensTypes) then
    c.seek [.member (.signature .signature), .member .body]
  else if t.isMark "=" then
    t.after.seek [operand { ending := .operand }, .member (.afterMember .operand)]
  else if dialect.hasTypes && (t.isMark "?" || t.isMark "!") then t.after.seek [rest]
  else if dialect.hasTypes && t.isMark ":" then
    t.after.seek [typed { ending := .declaration }, rest]
  else c.seek [.member (.afterMember .declaration)]

/-- The ways to reach a part of a function or of a class. -/
def memberWays (dialect : Dialect) (choices : Nat) (c : Cursor) : MemberGoal → List Way
  | .name role =>
    let t := c.read
    match t.word? with
    | some w =>
      if w == "extends" || (w == "implements" && dialect.hasTypes) then c.stay
      else t.after.seek (role.draws [t.leaf (some .name)])
    | none => if t.isMark "*" then t.after.seek [.member (.name role)] else c.stay
  | .signature ending =>
    let t := c.read
    if t.isMark "(" then t.after.seek [.expression .parameters, .member (.result ending)]
    else if dialect.hasTypes && t.opensTypes then
      t.afterFirst.seek [.type .parameters, .member (.signature ending)]
    else []
  | .result ending =>
    let t := c.read
    if dialect.hasTypes && t.isMark ":" then t.after.seek [typed { ending }] else c.stay
  | .body =>
    let t := c.read
    if t.isMark "\x7b" then c.seek [block]
    else if dialect.hasTypes then
      if t.isMark "," then t.after.stay else c.seek [.statement (.semicolon .signature)]
    else []
  | .classRest types => classRestWays dialect c types
  | .members =>
    let t := c.readLead
    if t.isMark "\x7d" then t.after.stay
    else if t.isMark ";" || t.isMark "," then t.after.seek [.member .members]
    else c.seek [.member .member, .commit choices, .member .members]
  | .member => classMemberWays c.readLead
  | .afterMemberName => afterMemberNameWays dialect c
  | .afterMember ending =>
    let t := c.read
    if t.isMark "," then t.after.stay else c.seek [.statement (.semicolon ending)]
  | .enumerators =>
    let t := c.readLead
    if t.isMark "\x7d" then t.after.stay
    else if t.isMark "," then t.after.seek [.member .enumerators]
    else if t.isMark "[" then t.after.seek [.type .index, .member .afterEnumerator]
    else t.expect t.startsName [.member .afterEnumerator]
  | .afterEnumerator =>
    let t := c.read
    if t.isMark "=" then t.after.seek [operand {}, .member .afterEnumerator]
    else if t.isMark "," then t.after.seek [.member .enumerators]
    else t.expect (t.isMark "\x7d") []
  | .interfaceRest =>
    let t := c.read
    if t.isMark "\x7b" then t.after.seek [.type .members]
    else if t.opensTypes then t.afterFirst.seek [.type .parameters, .member .interfaceRest]
    else if t.isWord "extends" || t.isMark "," then
      t.after.seek [innerType, .member .interfaceRest]
    else []

end DepGraph.Script
