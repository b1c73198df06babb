import Std.Data.TreeMap
import DepGraph.Path
import DepGraph.Source.Python
import DepGraph.Source.Script.Findings
import DepGraph.Source.Script.Reader
import DepGraph.Text.LowerCase
import DepGraph.Text.Quoted

/-!
# Source parsers

A source parser turns the text of a file into its imports and exports. A registry finds the parser
of a file by its extension, in whatever case the extension is written.

* `ParserRegistry.parserFor?_register`: the parser registered last for an extension is found.
-/

namespace DepGraph

open DepGraph.Text

/-- Why a source parser gives up on a file. -/
inductive SourceError where
  | malformed (path : String)
  | setup (reason : String)
  | poisoned
  deriving Repr, DecidableEq

/-- The wording of the error. -/
def SourceError.message : SourceError → String
  | .malformed path => s!"failed to parse {path}"
  | .setup reason => s!"parser initialization failed: {reason}"
  | .poisoned => "parser state poisoned"

/-- A parser for the files with certain extensions. It sees the path of a file beside its text. -/
structure SourceParser where
  name : String
  extensions : List String
  parse : Path → List Char → Except SourceError ParsedFile

/-! ## The parsers -/

/-- The dialect that an extension, in any case, stands for. -/
def Script.Dialect.ofExtension? (extension : String) : Option Script.Dialect :=
  ofLowerExtension? (lowered extension)

/-- The dialect in which a file is read; without a telling extension it is the one without types. -/
def Script.Dialect.ofPath (path : Path) : Script.Dialect :=
  (Script.Dialect.ofExtension? (path.extension?.getD "js")).getD .javaScript

/-- What a script imports and exports. -/
def Script.parse (dialect : Script.Dialect) (source : List Char) : ParsedFile :=
  Script.collect (Script.outline dialect source)

namespace SourceParser

/-- The parser for scripts of all dialects. -/
def script : SourceParser where
  name := "javascript"
  extensions := ["js", "jsx", "mjs", "cjs", "ts", "mts", "cts", "tsx"]
  parse path source := .ok (Script.parse (.ofPath path) source)

/-- The parser for Python sources. -/
def python : SourceParser where
  name := "python"
  extensions := ["py", "pyi"]
  parse _ source := .ok (Python.scan source)

end SourceParser

/-! ## Registries -/

/-- Parsers by extension; the extensions are in lower case. -/
structure ParserRegistry where
  parsers : Std.TreeMap String SourceParser := ∅

namespace ParserRegistry

/-- The registry without parsers. -/
def empty : ParserRegistry := {}

/-- Makes a parser responsible for one extension, in place of the one that was. -/
def insert (r : ParserRegistry) (extension : String) (parser : SourceParser) : ParserRegistry :=
  ⟨r.parsers.insert (loweredAscii extension) parser⟩

/-- Makes a parser responsible for all its extensions. -/
def register (r : ParserRegistry) (parser : SourceParser) : ParserRegistry :=
  parser.extensions.foldl (fun r extension => r.insert extension parser) r

/-- The registry with the parsers for scripts and for Python sources. -/
def standard : ParserRegistry :=
  (empty.register .script).register .python

/-- The parser of an extension. -/
def parserFor? (r : ParserRegistry) (extension : String) : Option SourceParser :=
  r.parsers[loweredAscii extension]?

/-- The parser of a file. -/
def parserOf? (r : ParserRegistry) (path : Path) : Option SourceParser :=
  path.extension?.bind r.parserFor?

/-- The extensions with a parser, in order. -/
def extensions (r : ParserRegistry) : List String :=
  r.parsers.keys

/-- Is there no parser? -/
def isEmpty (r : ParserRegistry) : Bool :=
  r.parsers.isEmpty

/-- The registry as shown to people: each extension with the name of its parser. -/
def description (r : ParserRegistry) : String :=
  "\x7b" ++ ", ".intercalate (r.parsers.toList.map fun entry =>
    quoted entry.1 ++ ": " ++ quoted entry.2.name) ++ "\x7d"

theorem parserFor?_insert (r : ParserRegistry) (extension other : String) (parser : SourceParser) :
    (r.insert extension parser).parserFor? other =
      if loweredAscii extension = loweredAscii other then some parser else r.parserFor? other := by
  simp [parserFor?, insert, Std.TreeMap.getElem?_insert]

theorem parserFor?_foldl_insert (parser : SourceParser) (other : String) :
    ∀ (extensions : List String) (r : ParserRegistry),
      (extensions.foldl (fun r extension => r.insert extension parser) r).parserFor? other =
        if extensions.any (loweredAscii · == loweredAscii other) then some parser
        else r.parserFor? other
  | [], r => by simp
  | extension :: rest, r => by
    rw [List.foldl_cons, parserFor?_foldl_insert parser other rest, parserFor?_insert]
    by_cases h : loweredAscii extension = loweredAscii other <;> simp [h]

theorem parserFor?_register (r : ParserRegistry) (parser : SourceParser) (other : String) :
    (r.register parser).parserFor? other =
      if parser.extensions.any (loweredAscii · == loweredAscii other) then some parser
      else r.parserFor? other :=
  parserFor?_foldl_insert parser other parser.extensions r

end ParserRegistry

end DepGraph
