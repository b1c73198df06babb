import DepGraph.Glob.Nesting

/-!
# Matching paths

A path is matched byte by byte. A place is where a byte starts or the path ends, and a piece takes
the places that have been reached to those that are reached after it. All places are followed at
once, so that the time it takes grows with the path and with the pattern, and no faster.

* `length_reach`: no place is lost or added on the way.
* `selects_iff`: a set selects what one of its patterns matches.
-/

namespace DepGraph.Glob

/-- The separator of components. -/
def separator : UInt8 := 0x2f

/-! ## Places -/

/-- Which places of a path have been reached, one before each byte and one at the end. -/
abbrev Places := List Bool

/-- Only the first place has been reached. -/
def firstPlace (bytes : List UInt8) : Places :=
  true :: bytes.map fun _ => false

/-- The places that are reached over one byte of a class. -/
def overByte (p : UInt8 → Bool) (bytes : List UInt8) (places : Places) : Places :=
  false :: List.zipWith (fun b reached => reached && p b) bytes places

/-- The places that are reached over any number of bytes of a class; the flag says that the first
place is reached in this way. -/
def overBytes (p : UInt8 → Bool) : Bool → List UInt8 → Places → Places
  | _, _, [] => []
  | carried, [], reached :: places => (carried || reached) :: places
  | carried, b :: bytes, reached :: places =>
    (carried || reached) :: overBytes p ((carried || reached) && p b) bytes places

/-- The places that are reached over the given bytes. -/
def overText (expected bytes : List UInt8) (places : Places) : Places :=
  expected.foldl (fun places e => overByte (· == e) bytes places) places

/-- The places that are reached in one way or the other. -/
def eitherPlace (a b : Places) : Places :=
  List.zipWith (· || ·) a b

theorem length_overByte (p : UInt8 → Bool) {bytes : List UInt8} {places : Places}
    (h : places.length = bytes.length + 1) :
    (overByte p bytes places).length = bytes.length + 1 := by
  simp [overByte, h]

theorem length_overBytes (p : UInt8 → Bool) :
    ∀ (carried : Bool) (bytes : List UInt8) (places : Places),
      (overBytes p carried bytes places).length = places.length
  | _, _, [] => by simp [overBytes]
  | _, [], _ :: _ => by simp [overBytes]
  | _, _ :: bytes, _ :: places => by
    simp [overBytes, length_overBytes p _ bytes places]

theorem length_overText {bytes : List UInt8} :
    ∀ (expected : List UInt8) {places : Places}, places.length = bytes.length + 1 →
      (overText expected bytes places).length = bytes.length + 1
  | [], _, h => h
  | e :: expected, _, h => length_overText expected (length_overByte (· == e) h)

theorem length_eitherPlace {a b : Places} {n : Nat} (ha : a.length = n) (hb : b.length = n) :
    (eitherPlace a b).length = n := by
  simp [eitherPlace, ha, hb]

/-! ## Pieces -/

/-- The bytes of a character. -/
def charBytes (c : Char) : List UInt8 :=
  String.utf8EncodeChar c

/-- Is the byte in the class? A character stands for each of its bytes; a range runs from the last
byte of its first character to the first byte of its last. -/
def inRanges (ranges : List (Char × Char)) (b : UInt8) : Bool :=
  ranges.any fun (low, high) =>
    if low == high then (charBytes low).contains b
    else
      (charBytes low).dropLast.contains b || (charBytes high).tail.contains b ||
        ((charBytes low).getLast?.any (· ≤ b) && (charBytes high).head?.any (b ≤ ·))

/-- The places that are reached over a separator. -/
def overSeparator (bytes : List UInt8) (places : Places) : Places :=
  overByte (· == separator) bytes places

/-- The places that are reached over any bytes. -/
def overAnything (bytes : List UInt8) (places : Places) : Places :=
  overBytes (fun _ => true) false bytes places

mutual

/-- The places that are reached over a piece. -/
def Piece.reach (bytes : List UInt8) (places : Places) : Piece → Places
  | .literal c => overText (charBytes c) bytes places
  | .any => overByte (· != separator) bytes places
  | .star => overBytes (· != separator) false bytes places
  | .leading => eitherPlace places (overSeparator bytes (overAnything bytes places))
  | .trailing => overAnything bytes (overSeparator bytes places)
  | .between =>
    eitherPlace (overSeparator bytes places)
      (overSeparator bytes (overAnything bytes (overSeparator bytes places)))
  | .oneOf negated ranges => overByte (fun b => inRanges ranges b != negated) bytes places
  | .choice branches => if allBlank branches then places else reachSome bytes places branches

/-- The places that are reached over pieces in a row. -/
def reach (bytes : List UInt8) (places : Places) : List Piece → Places
  | [] => places
  | piece :: pieces => reach bytes (piece.reach bytes places) pieces

/-- The places that are reached over one of the branches that are not blank. -/
def reachSome (bytes : List UInt8) (places : Places) : List (List Piece) → Places
  | [] => places.map fun _ => false
  | branch :: branches =>
    if isBlank branch then reachSome bytes places branches
    else eitherPlace (reach bytes places branch) (reachSome bytes places branches)

end

theorem length_overSeparator {bytes : List UInt8} {places : Places}
    (h : places.length = bytes.length + 1) :
    (overSeparator bytes places).length = bytes.length + 1 :=
  length_overByte _ h

theorem length_overAnything {bytes : List UInt8} {places : Places}
    (h : places.length = bytes.length + 1) :
    (overAnything bytes places).length = bytes.length + 1 :=
  (length_overBytes ..).trans h

mutual

theorem Piece.length_reach {bytes : List UInt8} {places : Places}
    (h : places.length = bytes.length + 1) :
    ∀ piece : Piece, (piece.reach bytes places).length = bytes.length + 1
  | .literal c => by
    rw [Piece.reach]
    exact length_overText _ h
  | .any => by
    rw [Piece.reach]
    exact length_overByte _ h
  | .star => by
    rw [Piece.reach]
    exact (length_overBytes ..).trans h
  | .leading => by
    rw [Piece.reach]
    exact length_eitherPlace h (length_overSeparator (length_overAnything h))
  | .trailing => by
    rw [Piece.reach]
    exact length_overAnything (length_overSeparator h)
  | .between => by
    rw [Piece.reach]
    have hs := length_overSeparator h
    exact length_eitherPlace hs (length_overSeparator (length_overAnything hs))
  | .oneOf _ _ => by
    rw [Piece.reach]
    exact length_overByte _ h
  | .choice branches => by
    rw [Piece.reach]
    split
    · exact h
    · exact length_reachSome h branches

theorem length_reach {bytes : List UInt8} {places : Places}
    (h : places.length = bytes.length + 1) :
    ∀ pieces : List Piece, (reach bytes places pieces).length = bytes.length + 1
  | [] => by
    rw [reach]
    exact h
  | piece :: pieces => by
    rw [reach]
    exact length_reach (Piece.length_reach h piece) pieces

theorem length_reachSome {bytes : List UInt8} {places : Places}
    (h : places.length = bytes.length + 1) :
    ∀ branches : List (List Piece), (reachSome bytes places branches).length = bytes.length + 1
  | [] => by
    rw [reachSome]
    simpa using h
  | branch :: branches => by
    rw [reachSome]
    split
    · exact length_reachSome h branches
    · exact length_eitherPlace (length_reach h branch) (length_reachSome h branches)

end

/-- Is the piece this character? -/
def Piece.isLiteral (expected : Char) : Piece → Bool
  | .literal c => c == expected
  | _ => false

/-- Is the piece a character? -/
def Piece.isChar : Piece → Bool
  | .literal _ => true
  | _ => false

/-- Does the pattern give a whole path, or the end of a path from a directory on, to the letter? -/
def isPlain : List Piece → Bool
  | .leading :: pieces => pieces.all Piece.isChar && pieces.any (Piece.isLiteral '/')
  | pieces => pieces.all Piece.isChar

/-- Does the pattern ask for a file whose name ends in a dot? -/
def asksForDot (pieces : List Piece) : Bool :=
  pieces.getLast?.any (Piece.isLiteral '.') && !isPlain pieces

/-- Is the last component of the path two dots, so that the path has no file name? -/
def lacksName (bytes : List UInt8) : Bool :=
  (bytes.reverse.takeWhile (· != separator)) == [0x2e, 0x2e]

/-- Do the pieces match the path? Two stars alone match everything. -/
def matchesBytes (pieces : List Piece) (bytes : List UInt8) : Bool :=
  match pieces with
  | [.leading] => true
  | pieces =>
    !(lacksName bytes && asksForDot pieces) &&
      (reach bytes (firstPlace bytes) pieces).getLast? == some true

/-! ## Sets of patterns -/

/-- Patterns that select a path together. -/
structure PatternSet where
  patterns : List (List Piece)

namespace PatternSet

/-- Reads the patterns; the first text that is none is answered with its fault. -/
def readAll : List String → Except (String × Fault) (List (List Piece))
  | [] => .ok []
  | text :: texts =>
    match read text with
    | .error fault => .error (text, fault)
    | .ok pieces =>
      match readAll texts with
      | .error fault => .error fault
      | .ok patterns => .ok (pieces :: patterns)

/-- Makes a set of patterns. If one is nested too deeply, the fault is that of all together. -/
def ofTexts (texts : List String) : Except (String × Fault) PatternSet :=
  match readAll texts with
  | .error fault => .error fault
  | .ok patterns =>
    if patterns.any (maxNesting < nesting ·) then .error (", ".intercalate texts, .tooDeep)
    else .ok ⟨patterns⟩

/-- The places of the patterns that match the path, in order. -/
def matching (set : PatternSet) (path : String) : List Nat :=
  let bytes := path.toUTF8.toList
  (set.patterns.zipIdx.filter fun pattern => matchesBytes pattern.1 bytes).map (·.2)

/-- Does a pattern match the path? -/
def selects (set : PatternSet) (path : String) : Bool :=
  let bytes := path.toUTF8.toList
  set.patterns.any fun pieces => matchesBytes pieces bytes

theorem selects_iff (set : PatternSet) (path : String) :
    set.selects path = true ↔
      ∃ pieces ∈ set.patterns, matchesBytes pieces path.toUTF8.toList = true := by
  simp [selects]

end PatternSet

end DepGraph.Glob
