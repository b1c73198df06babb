import DepGraph.Json.Basic

/-!
# Reading JSON

`Json.read?` accepts exactly one value between blanks. The reader is strict: no leading zeros, no
control characters in strings, no text after the value. Values may be nested to any depth.

The functions that read nested values take an amount of fuel. Each call reads at least one
character or hands over to a call that does, so twice the length of the text is enough.
-/

namespace DepGraph.Json

/-- The blanks between tokens. -/
def isSpace (c : Char) : Bool :=
  c == ' ' || c == '\t' || c == '\n' || c == '\r'

/-- The text after leading blanks. -/
def skipSpace (text : List Char) : List Char :=
  text.dropWhile isSpace

/-! ## Strings -/

/-- A part of a string: a character, or the sixteen-bit unit that a numeric escape names. -/
inductive StringUnit where
  | char (c : Char)
  | escaped (unit : Nat)

/-- The value of a hexadecimal digit. -/
def hexDigit? (c : Char) : Option Nat :=
  if c.isDigit then some (c.toNat - '0'.toNat)
  else if 'a' ≤ c && c ≤ 'f' then some (c.toNat - 'a'.toNat + 10)
  else if 'A' ≤ c && c ≤ 'F' then some (c.toNat - 'A'.toNat + 10)
  else none

/-- The value of four hexadecimal digits. -/
def hexUnit? (a b c d : Char) : Option Nat := do
  return (((← hexDigit? a) * 16 + (← hexDigit? b)) * 16 + (← hexDigit? c)) * 16 + (← hexDigit? d)

/-- The character that a letter stands for after a backslash. -/
def namedEscape? : Char → Option Char
  | '"' => some '"'
  | '\\' => some '\\'
  | '/' => some '/'
  | 'b' => some '\x08'
  | 'f' => some '\x0c'
  | 'n' => some '\n'
  | 'r' => some '\r'
  | 't' => some '\t'
  | _ => none

/-- Reads to the closing quote, with the parts read so far, last one first. -/
def readUnits : List StringUnit → List Char → Option (List StringUnit × List Char)
  | _, [] => none
  | done, '\\' :: 'u' :: a :: b :: c :: d :: rest =>
    match hexUnit? a b c d with
    | some unit => readUnits (.escaped unit :: done) rest
    | none => none
  | done, '\\' :: e :: rest =>
    match namedEscape? e with
    | some c => readUnits (.char c :: done) rest
    | none => none
  | done, c :: rest =>
    if c == '"' then some (done.reverse, rest)
    else if c == '\\' || c.toNat < 0x20 then none
    else readUnits (.char c :: done) rest

/-- Is the unit the first half of a surrogate pair? -/
def isHighSurrogate (unit : Nat) : Bool :=
  0xd800 ≤ unit && unit < 0xdc00

/-- Is the unit the second half of a surrogate pair? -/
def isLowSurrogate (unit : Nat) : Bool :=
  0xdc00 ≤ unit && unit < 0xe000

/-- The text of the parts of a string, if no half of a surrogate pair stands alone. -/
def unitsText? : List Char → List StringUnit → Option (List Char)
  | done, [] => some done.reverse
  | done, .char c :: rest => unitsText? (c :: done) rest
  | done, .escaped unit :: rest =>
    if isHighSurrogate unit then
      match rest with
      | .escaped low :: rest =>
        if isLowSurrogate low then
          unitsText? (Char.ofNat (0x10000 + (unit - 0xd800) * 0x400 + (low - 0xdc00)) :: done) rest
        else none
      | _ => none
    else if isLowSurrogate unit then none
    else unitsText? (Char.ofNat unit :: done) rest

/-- Reads a string after its opening quote. -/
def readString? (text : List Char) : Option (Option String × List Char) := do
  let (units, rest) ← readUnits [] text
  return ((unitsText? [] units).map String.ofList, rest)

/-! ## Numbers -/

/-- At least one digit, and the text after all of them. -/
def readDigits? (text : List Char) : Option (List Char × List Char) :=
  let digits := text.takeWhile Char.isDigit
  if digits.isEmpty then none else some (digits, text.dropWhile Char.isDigit)

/-- The digits before the point: a zero that leads stands alone. -/
def readWhole? (text : List Char) : Option (List Char × List Char) := do
  let (digits, rest) ← readDigits? text
  if digits.head? == some '0' && digits.length > 1 then none else some (digits, rest)

/-- The point and the digits after it, if there is a point. -/
def readFraction? : List Char → Option (List Char × List Char)
  | '.' :: text => do
    let (digits, rest) ← readDigits? text
    return ('.' :: digits, rest)
  | text => some ([], text)

/-- The sign of an exponent. -/
def readExponentSign : List Char → List Char × List Char
  | c :: text => if c == '+' || c == '-' then ([c], text) else ([], c :: text)
  | [] => ([], [])

/-- The exponent, if there is one. -/
def readExponent? : List Char → Option (List Char × List Char)
  | c :: text =>
    if c == 'e' || c == 'E' then do
      let (sign, text) := readExponentSign text
      let (digits, rest) ← readDigits? text
      return (c :: sign ++ digits, rest)
    else some ([], c :: text)
  | [] => some ([], [])

/-- The minus sign, if there is one. -/
def readMinus : List Char → List Char × List Char
  | '-' :: text => (['-'], text)
  | text => ([], text)

/-- Reads a number. -/
def readNumber? (text : List Char) : Option (Json × List Char) := do
  let (sign, text) := readMinus text
  let (whole, text) ← readWhole? text
  let (fraction, text) ← readFraction? text
  let (exponent, rest) ← readExponent? text
  return (.number (String.ofList (sign ++ whole ++ fraction ++ exponent)), rest)

/-! ## Values -/

/-- Reads the word and answers with the value it stands for. -/
def readWord? (word : String) (value : Json) (text : List Char) : Option (Json × List Char) :=
  if word.toList.isPrefixOf text then some (value, text.drop word.length) else none

mutual

/-- Reads a value. -/
def readValue? : Nat → List Char → Option (Json × List Char)
  | 0, _ => none
  | fuel + 1, text =>
    match skipSpace text with
    | [] => none
    | c :: rest =>
      if c == '"' then
        (readString? rest).map fun (text, rest) => (.string text, rest)
      else if c == '[' then
        match skipSpace rest with
        | ']' :: rest => some (.array [], rest)
        | rest => readItems? fuel [] rest
      else if c == '\x7b' then
        match skipSpace rest with
        | '\x7d' :: rest => some (.object [], rest)
        | rest => readFields? fuel [] rest
      else if c == 't' then readWord? "true" (.bool true) (c :: rest)
      else if c == 'f' then readWord? "false" (.bool false) (c :: rest)
      else if c == 'n' then readWord? "null" .null (c :: rest)
      else readNumber? (c :: rest)

/-- Reads the items of an array up to its end, with the items so far, last one first. -/
def readItems? : Nat → List Json → List Char → Option (Json × List Char)
  | 0, _, _ => none
  | fuel + 1, done, text =>
    match readValue? fuel text with
    | none => none
    | some (item, rest) =>
      match skipSpace rest with
      | ',' :: rest => readItems? fuel (item :: done) rest
      | ']' :: rest => some (.array (item :: done).reverse, rest)
      | _ => none

/-- Reads the fields of an object up to its end, with the fields so far, last one first. -/
def readFields? : Nat → List (Option String × Json) → List Char → Option (Json × List Char)
  | 0, _, _ => none
  | fuel + 1, done, text =>
    match skipSpace text with
    | '"' :: rest =>
      match readString? rest with
      | none => none
      | some (key, rest) =>
        match skipSpace rest with
        | ':' :: rest =>
          match readValue? fuel rest with
          | none => none
          | some (value, rest) =>
            match skipSpace rest with
            | ',' :: rest => readFields? fuel ((key, value) :: done) rest
            | '\x7d' :: rest => some (.object ((key, value) :: done).reverse, rest)
            | _ => none
        | _ => none
    | _ => none

end

/-- Reads a text that holds one value. -/
def read? (text : String) : Option Json :=
  let text := text.toList
  match readValue? (2 * text.length + 2) text with
  | some (value, rest) => if (skipSpace rest).isEmpty then some value else none
  | none => none

end DepGraph.Json
