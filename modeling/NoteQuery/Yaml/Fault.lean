import NoteQuery.Calendar
import NoteQuery.Number.Reading
import NoteQuery.Text.Quoted

/-!
# Faults of YAML texts

A text that breaks the rules of the language is malformed, and so is one in which a value does not fit
its tag. The other faults come from values that are written as their tag wants but do not exist, such as
the thirtieth of February, and from tags that are put on texts of another form. A reader of front matter
treats the two kinds differently.
-/

namespace NoteQuery.Yaml

/-- Why a YAML text has no value. -/
inductive Fault
  /-- It breaks the rules of the language, or a value does not fit its tag. -/
  | malformed
  /-- An integer is not written in its base. -/
  | integer (base : Nat) (text : String)
  /-- A number with a fraction is not written as one. -/
  | float (text : String)
  /-- A number has no characters. -/
  | emptyNumber
  /-- A truth value is not one of the words for them. -/
  | truth (text : String)
  /-- A date is not written as one. -/
  | dateForm
  /-- A date does not exist. -/
  | date (fault : CalendarFault)
  /-- An escape names a code that no character has. -/
  | code (code : Nat)
  /-- A node contains itself. -/
  | recursive
  /-- A key or a tag is an integer with more digits than are written. -/
  | digits
deriving Repr, DecidableEq

/-- What a fault says. -/
def Fault.message : Fault → String
  | malformed => "the text is malformed"
  | integer base text => s!"invalid literal for int() with base {base}: " ++ Text.quoted text
  | float text =>
    if text.isEmpty then "could not convert string to float: ''"
    else "could not convert string to float: " ++ Text.quoted text
  | emptyNumber => "string index out of range"
  | truth text => Text.quoted text
  | dateForm => "'NoneType' object has no attribute 'groupdict'"
  | date fault => fault.message
  | code _ => "chr() arg not in range(0x110000)"
  | recursive => "maximum recursion depth exceeded"
  | digits => Number.tooManyDigits none

end NoteQuery.Yaml
