import DepGraph.Source.Import
import DepGraph.Text.Blank
import DepGraph.Text.Letter
import DepGraph.Text.Pieces

/-!
# Python sources

A scanner for the import statements and the public top-level definitions of a Python source. It
reads one line at a time and keeps one of three modes between lines: ordinary code, the inside of a
triple-quoted block, or a parenthesised `from` import that is still open.

* `scan` is the fold of `PythonScan.readLine` over the numbered lines.
* `PythonScan.imports_readLine_of_block`: inside a block a line contributes nothing.
-/

namespace DepGraph.Python

open DepGraph.Text

/-! ## Names -/

/-- A name: letters, digits and underscores, and no ASCII digit first. -/
def isIdentifier : List Char → Bool
  | [] => false
  | c :: rest => !c.isDigit && (c :: rest).all isWordChar

/-- A module path: leading dots, then at least one identifier, joined by single dots. -/
def isModulePath (text : List Char) : Bool :=
  let body := text.dropWhile (· == '.')
  !body.isEmpty && (splitAt (· == '.') body).all isIdentifier

/-! ## Parts of a line -/

/-- The quotes that delimit a block. -/
inductive Delimiter where
  | double
  | single
  deriving Repr, DecidableEq

/-- The three characters of a delimiter. -/
def Delimiter.text : Delimiter → List Char
  | .double => ['"', '"', '"']
  | .single => ['\'', '\'', '\'']

/-- The line up to its comment. -/
def stripComment (line : List Char) : List Char :=
  line.takeWhile (· != '#')

/-- The block that a line opens and does not close: the delimiter that occurs on it an odd number
of times, the double quotes first. -/
def opensBlock (line : List Char) : Option Delimiter :=
  if countOf Delimiter.double.text line % 2 == 1 then some .double
  else if countOf Delimiter.single.text line % 2 == 1 then some .single
  else none

/-- The text after a keyword and its blank. -/
def afterKeyword (keyword : String) (line : List Char) : Option (List Char) :=
  if keyword.toList.isPrefixOf line then some (line.drop keyword.length) else none

/-- The name that a function or class definition introduces. -/
def definitionName (line : List Char) : Option (List Char) := do
  let rest ← afterKeyword "def " line <|> afterKeyword "async def " line <|>
    afterKeyword "class " line
  let name := rest.takeWhile isWordChar
  if name.isEmpty then none else some name

/-- The part of a clause before its alias. -/
def beforeAlias (clause : List Char) : List Char :=
  trim (upTo " as ".toList clause)

/-! ## Statements -/

/-- A reference on the given line. -/
def importAt (line : Nat) (specifier : List Char) : Import :=
  ⟨String.ofList specifier, .static, line⟩

/-- The modules of an `import` statement, given the text after its keyword. -/
def plainImports (line : Nat) (clauses : List Char) : List Import :=
  ((splitAt (· == ',') clauses).map beforeAlias).filter isModulePath |>.map (importAt line)

/-- The modules of a `from` statement. From a package, written as dots alone, each imported name
is a module of that package; otherwise the module after `from` is the only one. -/
def fromImports (line : Nat) (package names : List Char) : List Import :=
  let package := trim package
  if !package.isEmpty && package.all (· == '.') then
    let names := names.filter fun c => c != '(' && c != ')'
    ((splitAt (· == ',') names).map beforeAlias).filter isIdentifier
      |>.map fun name => importAt line (package ++ name)
  else if isModulePath package then [importAt line package]
  else []

/-- The modules that one statement imports. -/
def statementImports (line : Nat) (statement : List Char) : List Import :=
  match afterKeyword "import " statement with
  | some clauses => plainImports line clauses
  | none =>
    match afterKeyword "from " statement with
    | none => []
    | some rest =>
      match breakOn " import ".toList rest with
      | none => []
      | some (package, names) => fromImports line package names

/-! ## The scanner -/

/-- What the scanner remembers between two lines. -/
inductive Mode where
  /-- Outside blocks and open statements. -/
  | code
  /-- Inside a block that ends at the next line that holds its delimiter. -/
  | block (delimiter : Delimiter)
  /-- Inside a parenthesised statement: its text so far and the line on which it starts. -/
  | statement (text : List Char) (line : Nat)
  deriving Repr, DecidableEq

/-- The state of a scan: the mode and what has been found. -/
structure PythonScan where
  mode : Mode := .code
  imports : Array Import := #[]
  exports : Array String := #[]

namespace PythonScan

/-- The scan with the imports of a finished statement. -/
def addStatement (s : PythonScan) (line : Nat) (statement : List Char) : PythonScan :=
  { s with mode := .code, imports := s.imports ++ statementImports line statement }

/-- The scan with the name of a top-level definition; a leading underscore keeps it private. -/
def addDefinition (s : PythonScan) (name : List Char) : PythonScan :=
  if name.head? == some '_' then s else { s with exports := s.exports.push (String.ofList name) }

/-- Reads a line of ordinary code. -/
def readCode (s : PythonScan) (number : Nat) (raw : List Char) : PythonScan :=
  let line := trim (stripComment raw)
  match opensBlock line with
  | some delimiter => { s with mode := .block delimiter }
  | none =>
    let topLevel := match raw with
      | c :: _ => !isBlank c
      | [] => true
    match (if topLevel then definitionName line else none) with
    | some name => s.addDefinition name
    | none =>
      if "from ".toList.isPrefixOf line && line.contains '(' && !line.contains ')' then
        { s with mode := .statement line number }
      else s.addStatement number line

/-- Reads the line with the given number. -/
def readLine (s : PythonScan) (number : Nat) (raw : List Char) : PythonScan :=
  match s.mode with
  | .block delimiter => if occursIn delimiter.text raw then { s with mode := .code } else s
  | .statement text start =>
    let line := trim (stripComment raw)
    let text := text ++ ' ' :: line
    if line.contains ')' then s.addStatement start text
    else { s with mode := .statement text start }
  | .code => s.readCode number raw

theorem imports_readLine_of_block {s : PythonScan} {delimiter : Delimiter}
    (h : s.mode = .block delimiter) (number : Nat) (raw : List Char) :
    (s.readLine number raw).imports = s.imports ∧ (s.readLine number raw).exports = s.exports := by
  unfold readLine
  rw [h]
  dsimp only
  split <;> exact ⟨rfl, rfl⟩

/-- What has been found. -/
def result (s : PythonScan) : ParsedFile :=
  ⟨s.imports.toList, s.exports.toList⟩

end PythonScan

/-- Scans a source. Lines that are not understood are passed over. -/
def scan (source : List Char) : ParsedFile :=
  ((lines source).zipIdx 1).foldl (fun s line => s.readLine line.2 line.1) ({} : PythonScan)
    |>.result

end DepGraph.Python
