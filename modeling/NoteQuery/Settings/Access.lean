import NoteQuery.Settings.Fault
import NoteQuery.Value.Mapping

/-!
# Reading settings key by key

A value of settings is read under its section and key and has to be of one kind. A truth value is no
integer. A key whose value is nothing is there; a section that is nothing is missing. Texts are taken over
with every half of a character replaced.
-/

namespace NoteQuery.Settings

/-- A section, or the empty mapping for one that is missing and may be. -/
def section? (raw : Mapping) (key : String) (required : Bool) : Except SettingsFault Mapping :=
  match (Mapping.get? raw key).getD .null with
  | .null => if required then .error (.missing key) else .ok []
  | .map entries => .ok entries
  | v => .error (.section key v.typeName)

/-- A section of the settings with the values of its keys. -/
structure Section where
  /-- The name of the section. -/
  name : String
  /-- Its entries. -/
  entries : Mapping

/-- A section that has to be there. -/
def readSection (raw : Mapping) (name : String) : Except SettingsFault Section :=
  (section? raw name true).map fun entries ↦ ⟨name, entries⟩

namespace Section

/-- The dotted name of a key. -/
def dotted (s : Section) (key : String) : String := s.name ++ "." ++ key

/-- The value of a key. -/
def value (s : Section) (key : String) : Except SettingsFault Value :=
  match Mapping.get? s.entries key with
  | some v => .ok v
  | none => .error (.missing (s.dotted key))

end Section

/-- A value that has to be a text. -/
def asString (key : String) : Value → Except SettingsFault String
  | .str s => .ok s.mended
  | _ => .error (.kind key .string)

/-- A value that has to be a truth value. -/
def asBool (key : String) : Value → Except SettingsFault Bool
  | .bool b => .ok b
  | _ => .error (.kind key .boolean)

/-- A value that has to be an integer. -/
def asInt (key : String) : Value → Except SettingsFault Int
  | .int n => .ok n
  | _ => .error (.kind key .integer)

/-- The texts of a list, whose first item has the number `index`. -/
def itemsFrom (key : String) (index : Nat) : List Value → Except SettingsFault (List String)
  | [] => .ok []
  | v :: rest => do
    let s ← asString s!"{key}[{index}]" v
    return s :: (← itemsFrom key (index + 1) rest)

/-- A value that has to be a list of texts. -/
def asStrings (key : String) : Value → Except SettingsFault (List String)
  | .list xs => itemsFrom key 0 xs
  | _ => .error (.kind key .list)

namespace Section

/-- A text under a key. -/
def string (s : Section) (key : String) : Except SettingsFault String := do
  asString (s.dotted key) (← s.value key)

/-- An integer under a key. -/
def integer (s : Section) (key : String) : Except SettingsFault Int := do
  asInt (s.dotted key) (← s.value key)

/-- A list of texts under a key. -/
def strings (s : Section) (key : String) : Except SettingsFault (List String) := do
  asStrings (s.dotted key) (← s.value key)

end Section

end NoteQuery.Settings
