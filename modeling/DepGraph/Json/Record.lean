import Std.Data.TreeMap
import DepGraph.Json.Basic

/-!
# Records in JSON

A record is an object with known fields. Fields that are not known are passed over, and a known
field stands there once at most. A record may also be written as an array of its fields in order.
A map is an object with any keys, of which a later one replaces an earlier one of the same name.
-/

namespace DepGraph.Json

/-- The values under a key. -/
def valuesOf (fields : List (Option String × Json)) (key : String) : List Json :=
  (fields.filter fun field => field.1 == some key).map (·.2)

/-- The value of a field that stands there once at most. -/
def field? (fields : List (Option String × Json)) (key : String) : Option (Option Json) :=
  match valuesOf fields key with
  | [] => some none
  | [value] => some (some value)
  | _ => none

/-- The values of the fields of a record, in the order of their names. A field of an object may be
missing, and so may the last items of an array. -/
def record? (names : List String) : Json → Option (List (Option Json))
  | .object fields =>
    if fields.all (·.1.isSome) then names.mapM (field? fields) else none
  | .array items =>
    if items.length ≤ names.length then
      some (items.map some ++ List.replicate (names.length - items.length) none)
    else none
  | _ => none

/-- A value that may be `null`. -/
def nullable? {α : Type} (decode : Json → Option α) : Json → Option (Option α)
  | .null => some none
  | value => (decode value).map some

/-- A field with a value for when it is missing. -/
def fieldOr {α : Type} (default : α) (decode : Json → Option α) : Option Json → Option α
  | none => some default
  | some value => decode value

/-- The entries of a map from texts to texts. -/
def asTextMap? : Json → Option (Std.TreeMap String String)
  | .object fields => do
    let entries ← fields.mapM fun field => do
      return (← field.1, ← field.2.asText?)
    return entries.foldl (fun map entry => map.insert entry.1 entry.2) ∅
  | _ => none

/-- The form of a map from texts to texts. -/
def ofTextMap (map : Std.TreeMap String String) : Json :=
  .object (map.toList.map fun entry => (some entry.1, .text entry.2))

end DepGraph.Json
