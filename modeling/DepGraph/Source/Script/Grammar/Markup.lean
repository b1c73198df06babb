import DepGraph.Source.Script.Grammar.Types

/-!
# Grammar of markup

An element has a name, attributes and children, between which expressions stand in braces. The name
in a closing tag is not compared with the name that it closes.
-/

namespace DepGraph.Script

open Goal

/-- The way past the name of an element or of an attribute, with the blanks before it. -/
def markupName (c : Cursor) (goals : List Goal) : List Way :=
  let start := c.skip
  if start.markupNameLength == 0 then [] else (start.drop start.markupNameLength).seek goals

/-- The way to read an expression in braces, which may be missing, after the brace. -/
def embedded (c : Cursor) (goals : List Goal) : List Way :=
  let t := c.readLead
  if t.isMark "\x7d" then t.after.seek goals
  else if t.isMark "..." then t.after.seek ([innerOperand, .mark "\x7d"] ++ goals)
  else c.seek ([innerOperand, .mark "\x7d"] ++ goals)

/-- The ways to read the value of an attribute. -/
def attributeValueWays (c : Cursor) : List Way :=
  let t := c.read
  if t.start.startsWith "\"" || t.start.startsWith "'" then
    t.start.afterAttributeText.seek [.markup .attributes]
  else if t.isMark "\x7b" then embedded t.after [.markup .attributes]
  else if t.opensTypes then t.afterFirst.seek [.markup .element, .markup .attributes]
  else []

/-- The ways to reach a part of markup. -/
def markupWays (dialect : Dialect) (c : Cursor) : MarkupGoal → List Way
  | .element =>
    let t := c.read
    if t.start.startsWith ">" then t.afterFirst.seek [.markup .children]
    else c.seek [.markup .elementName]
  | .elementName => markupName c [.markup .afterElementName]
  | .afterElementName =>
    let t := c.read
    if t.isMark "." || t.isMark ":" then t.after.seek [.markup .elementName]
    else if dialect.hasTypes && t.opensTypes then
      t.afterFirst.seek [.type (.arguments false), .markup .attributes]
    else c.seek [.markup .attributes]
  | .attributes =>
    let t := c.read
    if t.start.startsWith "/" then
      let n := t.afterFirst.read
      if n.start.startsWith ">" then n.afterFirst.stay else []
    else if t.start.startsWith ">" then t.afterFirst.seek [.markup .children]
    else if t.isMark "\x7b" then embedded t.after [.markup .attributes]
    else markupName c [.markup .attributeName]
  | .attributeName =>
    let t := c.read
    if t.isMark ":" then markupName t.after [.markup .attributeName]
    else if t.start.startsWith "=" then t.afterFirst.seek [.markup .attributeValue]
    else c.seek [.markup .attributes]
  | .attributeValue => attributeValueWays c
  | .children =>
    let start := c.afterMarkupText
    let n := start.next.read
    if start.startsWith "\x7b" then embedded start.next [.markup .children]
    else if !start.startsWith "<" then []
    else if n.start.startsWith "/" then n.afterFirst.seek [.markup .closingTag]
    else start.next.seek [.markup .element, .markup .children]
  | .closingTag =>
    let t := c.read
    if t.start.startsWith ">" then t.afterFirst.stay
    else if t.isMark "." || t.isMark ":" then t.after.seek [.markup .closingTag]
    else markupName c [.markup .closingTag]

end DepGraph.Script
