/-!
# JSON values

A number keeps the text it was written with, because a reader has to tell `1` from `1.0`. The text
of a string is missing when an escape in it names half of a surrogate pair: such a string may stand
in a part of the document that nobody reads.
-/

namespace DepGraph

/-- A JSON value. Objects keep their fields in order, and keep repeated keys. -/
inductive Json where
  | null
  | bool (value : Bool)
  | number (lexeme : String)
  | string (text : Option String)
  | array (items : List Json)
  | object (fields : List (Option String × Json))
  deriving Repr, BEq, Inhabited

namespace Json

/-! ## Building -/

/-- The number `n`. -/
def nat (n : Nat) : Json :=
  .number (toString n)

/-- The text `s`. -/
def text (s : String) : Json :=
  .string s

/-- The texts of a list. -/
def texts (items : List String) : Json :=
  .array (items.map text)

/-- A value that may be missing, in which case it is `null`. -/
def ofOption {α : Type} (encode : α → Json) : Option α → Json
  | some a => encode a
  | none => .null

/-! ## Reading -/

/-- The text of a string. -/
def asText? : Json → Option String
  | .string text => text
  | _ => none

/-- The value of a Boolean. -/
def asBool? : Json → Option Bool
  | .bool value => some value
  | _ => none

/-- The items of an array. -/
def asArray? : Json → Option (List Json)
  | .array items => some items
  | _ => none

/-- The value of a number that is written as a natural number. -/
def asNat? : Json → Option Nat
  | .number lexeme =>
    if lexeme.toList.all Char.isDigit then lexeme.toNat? else none
  | _ => none

/-- The value of a number that is written as an integer. -/
def asInt? : Json → Option Int
  | .number lexeme =>
    match lexeme.toList with
    | '-' :: digits =>
      if digits.all Char.isDigit then (String.ofList digits).toNat?.map fun n => -(n : Int)
      else none
    | digits => if digits.all Char.isDigit then lexeme.toNat?.map Int.ofNat else none
  | _ => none

/-- The texts of an array of strings. -/
def asTexts? (json : Json) : Option (List String) := do
  (← json.asArray?).mapM asText?

/-- The first value under a key. -/
def get? (json : Json) (key : String) : Option Json :=
  match json with
  | .object fields => (fields.find? fun field => field.1 == some key).map (·.2)
  | _ => none

end Json

end DepGraph
