import DepGraph.Json.Basic

/-!
# Writing JSON

`compact` writes a value without blanks; `pretty` writes every item and field on a line of its own,
two blanks deeper than its container. Both escape only what has to be escaped.
-/

namespace DepGraph.Json

/-- The lower-case hexadecimal digit of a number below sixteen. -/
def hexChar (n : Nat) : Char :=
  if n < 10 then Char.ofNat ('0'.toNat + n) else Char.ofNat ('a'.toNat + n - 10)

/-- The written form of a character inside a string. -/
def escapeChar (c : Char) : List Char :=
  if c == '"' then ['\\', '"']
  else if c == '\\' then ['\\', '\\']
  else if c == '\n' then ['\\', 'n']
  else if c == '\r' then ['\\', 'r']
  else if c == '\t' then ['\\', 't']
  else if c == '\x08' then ['\\', 'b']
  else if c == '\x0c' then ['\\', 'f']
  else if c.toNat < 0x20 then
    ['\\', 'u', '0', '0', hexChar (c.toNat / 16), hexChar (c.toNat % 16)]
  else [c]

/-- Does a string hold a character that has to be escaped? -/
def needsEscape (c : Char) : Bool :=
  c == '"' || c == '\\' || c.toNat < 0x20

/-- The text between quotes, with its escapes. -/
def quote (text : String) : String :=
  if text.any needsEscape then
    "\"" ++ String.ofList (text.toList.flatMap escapeChar) ++ "\""
  else "\"" ++ text ++ "\""

/-- The written form of a value that holds no others. -/
def scalar : Json → String
  | .null => "null"
  | .bool true => "true"
  | .bool false => "false"
  | .number lexeme => lexeme
  | .string text => quote (text.getD "")
  | .array _ => "[]"
  | .object _ => "\x7b\x7d"

mutual

/-- Appends the value, without blanks. -/
def writeCompact (out : String) : Json → String
  | .array [] => out ++ "[]"
  | .array (item :: items) => writeCompactItems (writeCompact (out ++ "[") item) items ++ "]"
  | .object [] => out ++ "\x7b\x7d"
  | .object ((key, value) :: fields) =>
    writeCompactFields (writeCompact (out ++ "\x7b" ++ quote (key.getD "") ++ ":") value) fields
      ++ "\x7d"
  | value => out ++ scalar value

/-- Appends the items, each after a comma. -/
def writeCompactItems (out : String) : List Json → String
  | [] => out
  | item :: items => writeCompactItems (writeCompact (out ++ ",") item) items

/-- Appends the fields, each after a comma. -/
def writeCompactFields (out : String) : List (Option String × Json) → String
  | [] => out
  | (key, value) :: fields =>
    writeCompactFields (writeCompact (out ++ "," ++ quote (key.getD "") ++ ":") value) fields

end

/-- The value without blanks. -/
def compact (value : Json) : String :=
  writeCompact "" value

/-- A new line at the given depth. -/
def newLine (depth : Nat) : String :=
  "\n" ++ String.ofList (List.replicate (2 * depth) ' ')

mutual

/-- Appends the value, which stands at the given depth. -/
def writePretty (depth : Nat) (out : String) : Json → String
  | .array [] => out ++ "[]"
  | .array (item :: items) =>
    writePrettyItems (depth + 1) (writePretty (depth + 1) (out ++ "[" ++ newLine (depth + 1)) item)
      items ++ newLine depth ++ "]"
  | .object [] => out ++ "\x7b\x7d"
  | .object ((key, value) :: fields) =>
    writePrettyFields (depth + 1)
      (writePretty (depth + 1)
        (out ++ "\x7b" ++ newLine (depth + 1) ++ quote (key.getD "") ++ ": ") value)
      fields ++ newLine depth ++ "\x7d"
  | value => out ++ scalar value

/-- Appends the items, each after a comma and on a line of its own. -/
def writePrettyItems (depth : Nat) (out : String) : List Json → String
  | [] => out
  | item :: items =>
    writePrettyItems depth (writePretty depth (out ++ "," ++ newLine depth) item) items

/-- Appends the fields, each after a comma and on a line of its own. -/
def writePrettyFields (depth : Nat) (out : String) : List (Option String × Json) → String
  | [] => out
  | (key, value) :: fields =>
    writePrettyFields depth
      (writePretty depth (out ++ "," ++ newLine depth ++ quote (key.getD "") ++ ": ") value) fields

end

/-- The value with every item and field on a line of its own. -/
def pretty (value : Json) : String :=
  writePretty 0 "" value

end DepGraph.Json
