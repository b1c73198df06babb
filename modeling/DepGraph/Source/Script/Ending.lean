import DepGraph.Source.Script.Dialect
import DepGraph.Source.Script.Cursor

/-!
# Where a statement ends without a semicolon

A statement that could end may do without its semicolon before a closing brace, at the end of the
text, and before a line break after which it does not go on. Whether it goes on is told by the first
character after the break, except for a few that start two kinds of operators.

The ending says what could follow. After an operand a binary operator could, so that a bracket on
the next line belongs to it; after a declaration without a value none could; after the head of a
function its body could.

* `Cursor.reached_enclosed`: inside brackets nothing ends.
* `Cursor.reached_finish`: everything else ends with the text.
-/

namespace DepGraph.Script

/-- How a construct may end without a semicolon. -/
inductive Ending where
  /-- Inside brackets: not at all. -/
  | enclosed
  /-- After an operand. -/
  | operand
  /-- After a type or a name, which no operator may follow. -/
  | declaration
  /-- After the head of a function, which its body may follow. -/
  | signature
  deriving Repr, DecidableEq

/-! ## After a line break -/

/-- Does the text, which starts with the first letter of `in` and `instanceof`, start with another
word? -/
def startsOtherWord : List Char → Bool
  | 'i' :: 'n' :: rest =>
    rest.head?.any Char.isAlpha &&
      !("stanceof".toList.isPrefixOf rest && !(rest.drop 8).head?.any Char.isAlpha)
  | _ => true

/-- Does a construct end before a line break, given the text after the break and after the blanks
and comments that follow it? -/
def endsBeforeLine (dialect : Dialect) (ending : Ending) (text : List Char) : Bool :=
  match text with
  | [] => true
  | '.' :: rest => !dialect.hasTypes && rest.head?.any Char.isDigit
  | '(' :: _ | '[' :: _ => dialect.hasTypes && ending != .operand
  | '\x7b' :: _ => !(dialect.hasTypes && ending == .signature)
  | '+' :: rest => rest.head? == some '+'
  | '-' :: rest => rest.head? == some '-'
  | '!' :: rest => rest.head? != some '='
  | 'i' :: _ => startsOtherWord text
  | c :: _ => !("\x60,:;*%><=?^|&/".toList.contains c)

/-! ## Up to a line break -/

/-- Where a scan over a gap stands. -/
inductive Gap where
  | between
  /-- After a blank outside ASCII, from which only a comment leads back. -/
  | afterBlank
  | lineComment
  | blockComment

/-- Does the character end a line in a gap? -/
def isGapBreak (c : Char) : Bool :=
  c == '\n' || c == '\u2028' || c == '\u2029'

/-- The text after the plain blanks and the comments of a gap, and whether a line break was among
them; none where a slash starts no comment. If asked to, the scan stops after a comment between
marks, unless a slash follows, and looks for the break only in such comments; elsewhere a gap that
is read to its end counts as broken. -/
def afterGap (stops : Bool) : Bool → Gap → List Char → Option (Bool × List Char)
  | _, _, [] => some (true, [])
  | broken, .lineComment, c :: rest =>
    if isGapBreak c then afterGap stops broken .between rest
    else afterGap stops broken .lineComment rest
  | broken, .blockComment, '*' :: '/' :: rest =>
    if stops && rest.head? != some '/' then some (broken, rest)
    else afterGap stops broken .between rest
  | broken, .blockComment, c :: rest =>
    afterGap stops (broken || isGapBreak c) .blockComment rest
  | broken, _, '/' :: '/' :: rest => afterGap stops broken .lineComment rest
  | broken, _, '/' :: '*' :: rest => afterGap stops broken .blockComment rest
  | _, _, '/' :: _ => none
  | broken, _, c :: rest =>
    if isPlainSpace c then afterGap stops broken .between rest else some (true, c :: rest)

/-- Does a comment at the start of the text stand for a line break? It does where no operator could
follow, unless a comma or a value does. -/
def endsAtComment (text : List Char) : Bool :=
  match afterGap true false .between text with
  | some (true, rest) => rest.head? != some ',' && rest.head? != some '='
  | _ => false

/-- Does the character end a line of code? -/
def isLineEnd (dialect : Dialect) (c : Char) : Bool :=
  c == '\n' || (!dialect.hasTypes && isGapBreak c)

/-- Does a construct end before a line break, given the text after the break? -/
def endsAtBreak (dialect : Dialect) (ending : Ending) (text : List Char) : Bool :=
  match afterGap false false .between text with
  | some (_, rest) => endsBeforeLine dialect ending rest
  | none => false

/-- Does a construct end before the text that follows it? -/
def endsBefore (dialect : Dialect) (ending : Ending) : Gap → List Char → Bool
  | _, [] => true
  | .lineComment, c :: rest =>
    if !isBreak c then endsBefore dialect ending .lineComment rest
    else if isLineEnd dialect c then endsAtBreak dialect ending rest
    else endsBefore dialect ending (if c == '\r' then .between else .afterBlank) rest
  | .blockComment, '*' :: '/' :: rest => endsBefore dialect ending .between rest
  | .blockComment, _ :: rest => endsBefore dialect ending .blockComment rest
  | gap, '/' :: '/' :: rest =>
    countsAtComment gap ('/' :: '/' :: rest) || endsBefore dialect ending .lineComment rest
  | gap, '/' :: '*' :: rest =>
    countsAtComment gap ('/' :: '*' :: rest) || endsBefore dialect ending .blockComment rest
  | .afterBlank, c :: rest => isSpace c && endsBefore dialect ending .afterBlank rest
  | .between, '\x7d' :: rest =>
    !(dialect.hasTypes && (rest.dropWhile isPlainSpace).head? == some ':') || ending == .operand
  | .between, c :: rest =>
    if isLineEnd dialect c then endsAtBreak dialect ending rest
    else if isPlainSpace c then endsBefore dialect ending .between rest
    else isSpace c && endsBefore dialect ending .afterBlank rest
where
  /-- Does the comment at the start of the text stand for a line break here? -/
  countsAtComment : Gap → List Char → Bool
    | .between, text => !dialect.hasTypes && ending != .operand && endsAtComment text
    | _, _ => false

/-- Does a construct with this ending end at the cursor, without a semicolon? -/
def Cursor.reached (dialect : Dialect) (ending : Ending) (c : Cursor) : Bool :=
  ending != .enclosed && endsBefore dialect ending .between c.rest

theorem Cursor.reached_enclosed (dialect : Dialect) (c : Cursor) :
    c.reached dialect .enclosed = false := rfl

theorem Cursor.reached_finish {dialect : Dialect} {ending : Ending} (h : ending ≠ .enclosed)
    (line : Nat) : Cursor.reached dialect ending ⟨[], line⟩ := by
  cases ending
  · contradiction
  all_goals rfl

end DepGraph.Script
