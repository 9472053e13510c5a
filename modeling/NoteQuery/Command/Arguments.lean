import NoteQuery.Text.Search

/-!
# Arguments

The arguments of a command are options and words. An option begins with a dash and is more than the dash;
its value is the next argument, whatever that is, or stands after an equals sign. Two dashes end the
options. Where options may stand among the words they are taken out from between them; where they may not,
the first word ends them.

An option that is given twice has the last value.
-/

namespace NoteQuery.Command

/-- An option that a command knows. -/
structure KnownOption where
  /-- Its name, with the dashes. -/
  name : String
  /-- Whether it has a value. -/
  hasValue : Bool

/-- Arguments taken apart. -/
structure Arguments where
  /-- The options with their values, empty for those that have none, in order. -/
  options : List (String × String)
  /-- The words. -/
  words : List String
deriving Repr, DecidableEq

namespace Arguments

/-- No arguments but words. -/
def ofWords (words : List String) : Arguments := ⟨[], words⟩

/-- Arguments with an option in front. -/
def withOption (name value : String) (a : Arguments) : Arguments :=
  { a with options := (name, value) :: a.options }

/-- Arguments with a word in front. -/
def withWord (word : String) (a : Arguments) : Arguments := { a with words := word :: a.words }

/-- Whether an argument is an option. -/
def isOption (argument : String) : Bool :=
  match argument.toList with
  | '-' :: _ :: _ => true
  | _ => false

/-- The name of an option and the value after its equals sign. -/
def splitValue (argument : String) : String × Option String :=
  let name := argument.toList.takeWhile (· != '=')
  match argument.toList.drop name.length with
  | _ :: value => (String.ofList name, some (String.ofList value))
  | [] => (argument, none)

/-- Takes arguments apart. There is no result if an option is not known, lacks its value or has one that it
may not have. -/
def read? (known : List KnownOption) (among : Bool) : List String → Option Arguments
  | [] => some (ofWords [])
  | argument :: rest =>
    if argument = "--" then some (ofWords rest)
    else if isOption argument then
      let (name, given) := splitValue argument
      match known.find? (·.name = name) with
      | none => none
      | some option =>
        if option.hasValue then
          match given, rest with
          | some value, rest => (read? known among rest).map (withOption name value)
          | none, value :: rest => (read? known among rest).map (withOption name value)
          | none, [] => none
        else if given.isSome then none
        else (read? known among rest).map (withOption name "")
    else if among then (read? known among rest).map (withWord argument)
    else some (ofWords (argument :: rest))

/-- The value of an option. -/
def value? (a : Arguments) (name : String) : Option String := a.options.reverse.lookup name

/-- Whether an option is given. -/
def has (a : Arguments) (name : String) : Bool := a.options.any (·.1 = name)

end Arguments

end NoteQuery.Command
