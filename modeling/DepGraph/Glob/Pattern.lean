/-!
# Patterns for paths

A pattern is read into a list of pieces. Two stars cross directories only where they are a whole
component of a path; everywhere else a star stays inside a component.
-/

namespace DepGraph.Glob

/-- A piece of a pattern. -/
inductive Piece where
  | literal (char : Char)
  /-- One byte that is no separator. -/
  | any
  /-- Any number of bytes that are no separators. -/
  | star
  /-- Two stars at the start: any number of leading components. -/
  | leading
  /-- Two stars at the end: everything below a directory. -/
  | trailing
  /-- Two stars between separators: any number of components. -/
  | between
  /-- One byte of a class, given by ranges of characters. -/
  | oneOf (negated : Bool) (ranges : List (Char × Char))
  | choice (branches : List (List Piece))
  deriving Repr

/-- Why a text is no pattern. -/
inductive Fault where
  | unclosedClass
  | invalidRange
  | danglingEscape
  | unopenedChoice
  | unclosedChoice
  | tooDeep
  deriving Repr, DecidableEq

/-! ## Reading a pattern -/

/-- A choice that is still open: its finished branches, last one first, and the pieces before it,
last one first. -/
structure OpenChoice where
  branches : List (List Piece)
  outer : List Piece

/-- What has been read: the pieces of the current branch, last one first, and the choices around it,
from the inside out. -/
structure Partial where
  pieces : List Piece := []
  choices : List OpenChoice := []

namespace Partial

/-- One more piece. -/
def push (p : Partial) (piece : Piece) : Partial :=
  { p with pieces := piece :: p.pieces }

/-- Two stars that cross no directory. -/
def pushStars (p : Partial) : Partial :=
  (p.push .star).push .star

/-- Two stars that are a whole component take the place of the separator before them, unless two
stars stand there already. -/
def pushComponents (p : Partial) (piece : Piece) : Partial :=
  match p.pieces with
  | .leading :: _ => p
  | .trailing :: _ => p
  | _ => { p with pieces := piece :: p.pieces.drop 1 }

/-- Opens a choice. -/
def openChoice (p : Partial) : Partial :=
  ⟨[], ⟨[], p.pieces⟩ :: p.choices⟩

/-- Starts the next branch of the innermost choice; outside choices a comma is a literal. -/
def nextBranch (p : Partial) : Partial :=
  match p.choices with
  | [] => p.push (.literal ',')
  | choice :: rest => ⟨[], ⟨p.pieces.reverse :: choice.branches, choice.outer⟩ :: rest⟩

/-- Closes the innermost choice. -/
def closeChoice (p : Partial) : Except Fault Partial :=
  match p.choices with
  | [] => .error .unopenedChoice
  | choice :: rest =>
    .ok ⟨.choice (p.pieces.reverse :: choice.branches).reverse :: choice.outer, rest⟩

end Partial

/-- Where the reader stands: between pieces, or inside a class, with its ranges so far, last one
first, and whether a hyphen waits for the end of a range. -/
inductive Place where
  | outside
  | classStart
  | inClass (negated : Bool) (ranges : List (Char × Char)) (inRange : Bool)

/-- The ranges with one more character, which ends a range if a hyphen waits for it. -/
def addToClass (ranges : List (Char × Char)) (inRange : Bool) (c : Char) :
    Except Fault (List (Char × Char)) :=
  match inRange, ranges with
  | true, (low, _) :: rest => if c < low then .error .invalidRange else .ok ((low, c) :: rest)
  | _, _ => .ok ((c, c) :: ranges)

/-- Reads the rest of a pattern, given the character before it. -/
def readFrom (p : Partial) : Place → Option Char → List Char → Except Fault Partial
  | .outside, _, [] => .ok p
  | .classStart, _, [] => .error .unclosedClass
  | .inClass _ _ _, _, [] => .error .unclosedClass
  | .classStart, _, c :: rest =>
    if c == '!' || c == '^' then
      match rest with
      | [] => .error .unclosedClass
      | d :: rest => readFrom p (.inClass true [(d, d)] false) d rest
    else readFrom p (.inClass false [(c, c)] false) c rest
  | .inClass negated ranges inRange, _, c :: rest =>
    if c == ']' then
      let ranges := if inRange then ('-', '-') :: ranges else ranges
      readFrom (p.push (.oneOf negated ranges.reverse)) .outside c rest
    else if c == '-' && !inRange then readFrom p (.inClass negated ranges true) c rest
    else
      match addToClass ranges inRange c with
      | .ok ranges => readFrom p (.inClass negated ranges false) c rest
      | .error fault => .error fault
  | .outside, before, c :: rest =>
    if c == '?' then readFrom (p.push .any) .outside c rest
    else if c == '[' then readFrom p .classStart c rest
    else if c == '\x7b' then readFrom p.openChoice .outside c rest
    else if c == '\x7d' then
      match p.closeChoice with
      | .ok p => readFrom p .outside c rest
      | .error fault => .error fault
    else if c == ',' then readFrom p.nextBranch .outside c rest
    else if c == '\\' then
      match rest with
      | [] => .error .danglingEscape
      | d :: rest => readFrom (p.push (.literal d)) .outside d rest
    else if c != '*' then readFrom (p.push (.literal c)) .outside c rest
    else
      match rest with
      | '*' :: rest =>
        if p.pieces.isEmpty then
          match rest with
          | [] => .ok (p.push .leading)
          | '/' :: rest => readFrom (p.push .leading) .outside '/' rest
          | rest => readFrom p.pushStars .outside '*' rest
        else if before != some '/' &&
            (p.choices.isEmpty || (before != some ',' && before != some '\x7b')) then
          readFrom p.pushStars .outside '*' rest
        else
          match rest with
          | [] => .ok (p.pushComponents .trailing)
          | '/' :: rest => readFrom (p.pushComponents .between) .outside '/' rest
          | rest =>
            if !p.choices.isEmpty && (rest.head? == some ',' || rest.head? == some '\x7d') then
              readFrom (p.pushComponents .trailing) .outside '*' rest
            else readFrom p.pushStars .outside '*' rest
      | rest => readFrom (p.push .star) .outside '*' rest

/-- Reads a pattern. -/
def read (text : String) : Except Fault (List Piece) := do
  let p ← readFrom {} .outside none text.toList
  if p.choices.isEmpty then .ok p.pieces.reverse else .error .unclosedChoice

end DepGraph.Glob
