import DepGraph.Source.Script.Cursor

/-!
# Lexemes of a script

`Cursor.read` reads the lexeme at a cursor. What a slash or a quote of a template starts depends on
where it stands, so both are read as plain marks; the grammar asks for a pattern, for the text of a
template or for the text of markup where one may stand.

* `Cursor.read_after_suffix`: reading only goes forward.
-/

namespace DepGraph.Script

/-- A word, a number, a string, a mark of one or more characters, or the end of the text. Strings
keep their quotes and escapes. -/
inductive Lexeme where
  | word (text : String)
  | number
  | string (text : String)
  | mark (text : String)
  | finish
  deriving Repr, DecidableEq

/-! ## Words -/

/-- May the character stand in a word? -/
def isWordPart (c : Char) : Bool :=
  c.isAlphanum || c == '_' || c == '$' || (127 ≤ c.toNat && !isSpace c)

/-- Is the character a hexadecimal digit? -/
def isHexDigit (c : Char) : Bool :=
  c.isDigit || ('a' ≤ c && c ≤ 'f') || ('A' ≤ c && c ≤ 'F')

/-- The length of the escape at the start of the text, which stands for one character of a word. -/
def escapeLength : List Char → Nat
  | '\\' :: 'u' :: '\x7b' :: rest =>
    let digits := rest.takeWhile isHexDigit
    if !digits.isEmpty && rest[digits.length]? == some '\x7d' then digits.length + 4 else 0
  | '\\' :: 'u' :: rest =>
    if (rest.take 4).length == 4 && (rest.take 4).all isHexDigit then 6 else 0
  | _ => 0

/-- The length of the word at the start of the text, after so many characters of it, the next ones
of which belong to an escape. -/
def wordLength (length : Nat) : Nat → List Char → Nat
  | _, [] => length
  | escaped + 1, _ :: rest => wordLength (length + 1) escaped rest
  | 0, c :: rest =>
    if isWordPart c then wordLength (length + 1) 0 rest
    else
      match escapeLength (c :: rest) with
      | 0 => length
      | escaped + 1 => wordLength (length + 1) escaped rest

/-! ## Numbers and strings -/

/-- May the character stand in a decimal number? -/
def isDecimalPart (c : Char) : Bool :=
  c.isDigit || c == '_'

/-- The length of the exponent at the start of the text. -/
def exponentLength : List Char → Nat
  | e :: rest =>
    let sign := if rest.head? == some '+' || rest.head? == some '-' then 1 else 0
    let digits := ((rest.drop sign).takeWhile isDecimalPart).length
    if (e == 'e' || e == 'E') && digits != 0 then 1 + sign + digits else 0
  | [] => 0

/-- The length of the decimal number at the start of the text. -/
def decimalLength (text : List Char) : Nat :=
  let whole := (text.takeWhile isDecimalPart).length
  match text.drop whole with
  | 'n' :: _ => whole + 1
  | '.' :: rest =>
    let digits := (rest.takeWhile isDecimalPart).length
    whole + 1 + digits + exponentLength (rest.drop digits)
  | rest => whole + exponentLength rest

/-- The length of the number at the start of the text. -/
def numberLength : List Char → Nat
  | '0' :: x :: rest =>
    if x.isAlpha && x.toLower != 'e' && x != 'n' then
      2 + (rest.takeWhile fun c => isHexDigit c || c == '_' || c == 'n').length
    else decimalLength ('0' :: x :: rest)
  | text => decimalLength text

/-- The length of a string up to its closing quote, after so many characters of it. A string ends on
the line on which it starts, unless the end of the line is escaped. -/
def stringLength? (quote : Char) : Nat → List Char → Option Nat
  | _, [] => none
  | length, '\\' :: '\r' :: '\n' :: rest => stringLength? quote (length + 3) rest
  | length, '\\' :: _ :: rest => stringLength? quote (length + 2) rest
  | length, c :: rest =>
    if c == quote then some (length + 1)
    else if c == '\n' || c == '\r' then none
    else stringLength? quote (length + 1) rest

/-! ## Marks -/

/-- The marks of more than one character, longest first. -/
def longMarks : List (List Char) :=
  [">>>=", "...", "===", "!==", "**=", "<<=", ">>=", ">>>", "&&=", "||=", "??=", "=>", "==", "!=",
    "++", "--", "+=", "-=", "*=", "/=", "%=", "&=", "|=", "^=", "<=", ">=", "<<", ">>", "**", "&&",
    "||", "??", "?."].map String.toList

/-- The characters that start none of the marks of more than one character. -/
def loneMarks : List Char :=
  "()[]\x7b\x7d,;:~@#\x60".toList

/-- The mark at the start of the text. Before a digit, a question mark and a point are two. -/
def markAt : List Char → List Char
  | [] => []
  | '?' :: '.' :: c :: _ => if c.isDigit then ['?'] else ['?', '.']
  | c :: rest =>
    if loneMarks.contains c then [c]
    else (longMarks.find? (·.isPrefixOf (c :: rest))).getD [c]

/-- The length and the kind of the lexeme at the start of the text. -/
def lexemeAt : List Char → Nat × Lexeme
  | [] => (0, .finish)
  | c :: rest =>
    if c.isDigit || (c == '.' && rest.head?.any Char.isDigit) then
      (numberLength (c :: rest), .number)
    else
      let hash := if c == '#' then 1 else 0
      match wordLength hash 0 ((c :: rest).drop hash) - hash with
      | 0 =>
        match if c == '"' || c == '\'' then stringLength? c 1 rest else none with
        | some length => (length, .string (String.ofList ((c :: rest).take length)))
        | none => let mark := markAt (c :: rest); (mark.length, .mark (String.ofList mark))
      | length + 1 =>
        let length := hash + length + 1
        (length, .word (String.ofList ((c :: rest).take length)))

/-- A lexeme with the places where it starts and where it ends. -/
structure Reading where
  start : Cursor
  lexeme : Lexeme
  after : Cursor

namespace Cursor

/-- The lexeme exactly at the cursor. -/
def readHere (c : Cursor) : Reading :=
  let (length, lexeme) := lexemeAt c.rest
  ⟨c, lexeme, c.drop length⟩

/-- The lexeme after the blanks and comments before an operator. -/
def read (c : Cursor) : Reading :=
  c.skip.readHere

/-- The lexeme after the blanks and comments before an operand, a statement or a member. -/
def readLead (c : Cursor) : Reading :=
  c.lead.readHere

theorem readHere_after_suffix (c : Cursor) : c.readHere.after.rest <:+ c.rest :=
  drop_suffix ..

theorem read_after_suffix (c : Cursor) : c.read.after.rest <:+ c.rest :=
  (readHere_after_suffix _).trans c.skip_suffix

end Cursor

namespace Reading

/-- Is the lexeme this mark? -/
def isMark (t : Reading) (text : String) : Bool :=
  t.lexeme == .mark text

/-- The mark, if the lexeme is one. -/
def mark? (t : Reading) : Option String :=
  match t.lexeme with
  | .mark m => some m
  | _ => none

/-- Is the lexeme one of these marks? -/
def isMarkIn (t : Reading) (texts : List String) : Bool :=
  t.mark?.any texts.contains

/-- Is the lexeme this word? -/
def isWord (t : Reading) (text : String) : Bool :=
  t.lexeme == .word text

/-- The word, if the lexeme is one. -/
def word? (t : Reading) : Option String :=
  match t.lexeme with
  | .word w => some w
  | _ => none

/-- The text of a word, of a string or of a mark. -/
def text (t : Reading) : String :=
  match t.lexeme with
  | .word s | .string s | .mark s => s
  | _ => ""

/-- Is the lexeme a word? -/
def isAnyWord (t : Reading) : Bool :=
  t.word?.isSome

/-- Is the lexeme one of these words? -/
def isWordIn (t : Reading) (texts : List String) : Bool :=
  t.word?.any texts.contains

/-- Does the lexeme start with an angle bracket that may open a list of types? -/
def opensTypes (t : Reading) : Bool :=
  t.start.rest.head? == some '<'

/-- The place after the first character of the lexeme. -/
def afterFirst (t : Reading) : Cursor :=
  t.start.next

end Reading

/-! ## Patterns, templates and markup -/

/-- The text after a regular expression whose first slash has been read, if it ends. A slash between
square brackets does not end it. -/
def skipPattern? : Bool → List Char → Option (List Char)
  | _, [] => none
  | _, '\n' :: _ => none
  | inClass, '\\' :: c :: rest => if c == '\n' then none else skipPattern? inClass rest
  | inClass, c :: rest =>
    if c == '/' && !inClass then some (rest.dropWhile Char.isAlpha)
    else skipPattern? (if c == '[' then true else if c == ']' then false else inClass) rest

/-- Where the text of a template stops. -/
inductive TemplateStop where
  | closed
  | substitution
  | unclosed

/-- Passes over the text of a template. -/
def skipTemplateText : Nat → List Char → TemplateStop × Cursor
  | line, [] => (.unclosed, ⟨[], line⟩)
  | line, '\\' :: '\n' :: rest => skipTemplateText (line + 1) rest
  | line, '\\' :: _ :: rest => skipTemplateText line rest
  | line, '$' :: '\x7b' :: rest => (.substitution, ⟨rest, line⟩)
  | line, '\n' :: rest => skipTemplateText (line + 1) rest
  | line, c :: rest =>
    if c == '\x60' then (.closed, ⟨rest, line⟩) else skipTemplateText line rest

/-- Passes over text up to a character of the class. -/
def skipUpTo (stops : Char → Bool) : Nat → List Char → Cursor
  | line, [] => ⟨[], line⟩
  | line, c :: rest =>
    if stops c then ⟨c :: rest, line⟩
    else skipUpTo stops (if c == '\n' then line + 1 else line) rest

namespace Cursor

/-- The place after the regular expression at the cursor, if there is one. -/
def afterPattern? (c : Cursor) : Option Cursor :=
  match c.rest with
  | '/' :: rest => (skipPattern? false rest).map (⟨·, c.line⟩)
  | _ => none

/-- Passes over the text of a template. -/
def templateText (c : Cursor) : TemplateStop × Cursor :=
  skipTemplateText c.line c.rest

/-- The place after the text inside an element. -/
def afterMarkupText (c : Cursor) : Cursor :=
  skipUpTo (fun c => c == '<' || c == '>' || c == '\x7b' || c == '\x7d') c.line c.rest

/-- The place after the value of an attribute, which knows no escapes. -/
def afterAttributeText (c : Cursor) : Cursor :=
  match c.rest with
  | quote :: rest => (skipUpTo (· == quote) c.line rest).next
  | [] => c

/-- The length of the name of an element or an attribute at the cursor. -/
def markupNameLength (c : Cursor) : Nat :=
  (c.rest.takeWhile fun c => isWordPart c || c == '-').length

/-- The end of the line on which the cursor stands. -/
def lineEnd (c : Cursor) : Cursor :=
  skipUpTo (· == '\n') c.line c.rest

/-- The place after the line that names an interpreter, if the text starts with one. -/
def afterInterpreter (c : Cursor) : Cursor :=
  let start := c.lead
  if start.startsWith "#!" then start.lineEnd else c

/-- The text from the cursor up to a later one. -/
def textTo (c later : Cursor) : String :=
  String.ofList (c.rest.take (c.rest.length - later.rest.length))

end Cursor

end DepGraph.Script
