import NoteQuery.Text.Quoted
import NoteQuery.Yaml.Fault

/-!
# Faults of settings

Every fault names the dotted key that it refers to, such as `vault.extensions[1]`, so settings can be
mended from the message alone. A fault of type says which kind of value is wanted; all others are faults
of value.
-/

namespace NoteQuery

/-- A kind of value that a key of the settings may want. -/
inductive Wanted
  /-- A text. -/
  | string
  /-- A truth value. -/
  | boolean
  /-- An integer. -/
  | integer
  /-- A list. -/
  | list
deriving Repr, DecidableEq

/-- Why settings are refused. -/
inductive SettingsFault
  /-- The bytes of the settings are no text. -/
  | encoding
  /-- The text of the settings is no YAML. -/
  | yaml (fault : Yaml.Fault)
  /-- The settings are no mapping. -/
  | root
  /-- A section or a key is missing. -/
  | missing (key : String)
  /-- A section is no mapping. -/
  | section (key typeName : String)
  /-- A value is not of the kind that is wanted. -/
  | kind (key : String) (wanted : Wanted)
  /-- The level is not one of those of the log. -/
  | level (name : String)
  /-- The directory of log files is blank, but they are wanted. -/
  | logDirectory
  /-- The default key is not one of the fields that bare words can be tested against. -/
  | defaultKey
  /-- The cap on clauses is negative. -/
  | negativeCap
  /-- The root of the vault is blank. -/
  | vaultRoot
  /-- There is no suffix of notes. -/
  | noExtensions
  /-- A suffix does not begin with a point. -/
  | extension (suffix : String)
  /-- There is no output format. -/
  | noFormats
  /-- Output formats that are not known, sorted. -/
  | unknownFormats (names : List String)
  /-- The directory of result files is blank, but they are wanted. -/
  | outputDirectory
deriving Repr, DecidableEq

namespace Settings

/-- The names of the levels of the log. -/
def levelNames : List String := ["DEBUG", "INFO", "WARNING", "ERROR", "CRITICAL"]

/-- The fields that bare words can be tested against, sorted. -/
def defaultKeys : List String :=
  ["content", "default", "file", "path", "ref", "reference", "references", "refs", "tag", "title"]

/-- Texts as a list in brackets. -/
def shownList (names : List String) : String :=
  "[" ++ ", ".intercalate (names.map fun name : String ↦ Text.quoted name) ++ "]"

end Settings

/-- A kind of value with its article. -/
def Wanted.label : Wanted → String
  | string => "a string"
  | boolean => "a boolean"
  | integer => "an integer"
  | list => "a list"

/-- What a fault says. -/
def SettingsFault.message : SettingsFault → String
  | encoding => "settings are not encoded in UTF-8"
  | yaml fault => fault.message
  | root => "Config root must be a mapping/object"
  | missing key => s!"Missing required config: {key}"
  | .section key typeName => s!"{key} must be a mapping, got {typeName}"
  | kind key wanted => s!"{key} must be " ++ wanted.label
  | level name =>
    "log.level must be one of " ++ ", ".intercalate Settings.levelNames ++ ", got " ++ Text.quoted name
  | logDirectory => "log.dir must not be empty when log.to_file is enabled"
  | defaultKey => "search.default_key must be one of " ++ Settings.shownList Settings.defaultKeys
  | negativeCap => "search.max_clauses must be 0 (unlimited) or positive"
  | vaultRoot => "vault.root must not be empty"
  | noExtensions => "vault.extensions must include at least one suffix"
  | extension suffix => s!"vault.extensions entries must start with '.': {suffix}"
  | noFormats => "output.formats must include at least one format"
  | unknownFormats names => "output.formats has unknown formats: " ++ Settings.shownList names
  | outputDirectory => "output.base_dir must not be empty when json output is enabled"

end NoteQuery
