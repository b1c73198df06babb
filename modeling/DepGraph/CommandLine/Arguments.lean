/-!
# Arguments

Arguments are options, in their long or short form and with or without a value, up to the name of a
command. An option is given once at most. Reading stops where help or the version is asked for.

* `give_of_given`: an option that is given twice is a misuse.
-/

namespace DepGraph.CommandLine

/-- Why arguments are not read to the end. -/
inductive Stop where
  | help
  | version
  | misuse
  deriving Repr, DecidableEq

/-- An option. -/
structure Switch where
  long : String
  short : Option Char := none
  /-- Which values are accepted; without this the option takes no value. -/
  accepts : Option (String → Bool) := none
  /-- Does reading stop at the option? -/
  stop : Option Stop := none

/-- The options and the commands that may be named. -/
structure Grammar where
  switches : List Switch
  commands : List String := []

/-- The options that were given, by their long form, each with its value. -/
abbrev Given := List (String × String)

namespace Switch

/-- Adds the option with its value. -/
def give (s : Switch) (value : String) (given : Given) : Except Stop Given :=
  match s.stop with
  | some stop => .error stop
  | none =>
    if given.any (·.1 == s.long) then .error .misuse
    else if s.accepts.all (· value) then .ok (given ++ [(s.long, value)])
    else .error .misuse

theorem give_of_given {s : Switch} {given : Given} (hs : s.stop = none)
    (h : given.any (·.1 == s.long) = true) (value : String) :
    s.give value given = .error .misuse := by
  simp [give, hs, h]

end Switch

namespace Grammar

/-- Reads the rest of a long option, with the value that is attached to it. The answer names the
option if its value is still to come. -/
def readLong (g : Grammar) (given : Given) (text : List Char) :
    Except Stop (Given × Option Switch) := do
  let name := String.ofList (text.takeWhile (· != '='))
  match g.switches.find? (·.long == name) with
  | none => .error .misuse
  | some s =>
    match s.accepts, text.dropWhile (· != '=') with
    | none, [] => return (← s.give "" given, none)
    | none, _ => .error .misuse
    | some _, [] => return (given, some s)
    | some _, _ :: value => return (← s.give (String.ofList value) given, none)

/-- Reads short options in a row, the last of which may have its value attached. The answer names
the option if its value is still to come. -/
def readShort (g : Grammar) (given : Given) : List Char → Except Stop (Given × Option Switch)
  | [] => return (given, none)
  | c :: rest =>
    match g.switches.find? (·.short == some c) with
    | none => .error .misuse
    | some s =>
      match s.accepts, rest with
      | none, rest => do g.readShort (← s.give "" given) rest
      | some _, [] => return (given, some s)
      | some _, '=' :: value => return (← s.give (String.ofList value) given, none)
      | some _, value => return (← s.give (String.ofList value) given, none)

/-- Does the argument have the form of an option? -/
def isSwitch (argument : String) : Bool :=
  match argument.toList with
  | '-' :: _ :: _ => true
  | _ => false

/-- Reads an argument that is an option. -/
def readSwitch (g : Grammar) (given : Given) (argument : String) :
    Except Stop (Given × Option Switch) :=
  match argument.toList with
  | '-' :: '-' :: text => g.readLong given text
  | '-' :: c :: text => g.readShort given (c :: text)
  | _ => .error .misuse

/-- Reads arguments up to the name of a command, which is answered with the arguments after it. Two
dashes alone end the options. -/
def read (g : Grammar) (given : Given) :
    List String → Except Stop (Given × Option (String × List String))
  | [] => return (given, none)
  | [argument] =>
    if g.commands.contains argument then return (given, some (argument, []))
    else if argument == "--" then return (given, none)
    else
      match g.readSwitch given argument with
      | .error stop => .error stop
      | .ok (_, some _) => .error .misuse
      | .ok (given, none) => return (given, none)
  | argument :: next :: rest =>
    if g.commands.contains argument then return (given, some (argument, next :: rest))
    else if argument == "--" then .error .misuse
    else
      match g.readSwitch given argument with
      | .error stop => .error stop
      | .ok (given, none) => g.read given (next :: rest)
      | .ok (given, some s) =>
        if isSwitch next then .error .misuse
        else
          match s.give next given with
          | .error stop => .error stop
          | .ok given => g.read given rest

end Grammar

end DepGraph.CommandLine
