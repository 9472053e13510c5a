import NoteQuery.Settings.Access
import NoteQuery.Settings.Merge
import NoteQuery.Text.Case
import NoteQuery.Text.Distinct
import NoteQuery.Text.Lines
import NoteQuery.Yaml.Document

/-!
# Settings

Settings say what is logged, how queries are read, where the notes are and where results go. They are
read in two passes. The first takes every value from its section and brings it into normal form; the
second checks what the values mean. So a missing or ill-typed value anywhere is reported before a value
that makes no sense.

A settings file is laid over the defaults.
-/

namespace NoteQuery

/-- What is logged. -/
structure LogSettings where
  /-- The name of the least level on the console, in upper case. -/
  level : String
  /-- Whether everything goes into a file too. -/
  toFile : Bool
  /-- The directory of log files. -/
  dir : String
deriving Repr, DecidableEq

/-- How queries are read. -/
structure SearchSettings where
  /-- The field that bare words are tested against, in lower case. -/
  defaultKey : String
  /-- The cap on clauses; zero sets none. -/
  maxClauses : Int
deriving Repr, DecidableEq

/-- Where the notes are. -/
structure VaultSettings where
  /-- The root directory. -/
  root : String
  /-- The suffixes of notes, in lower case. -/
  extensions : List String
deriving Repr, DecidableEq

/-- Where results go. -/
structure OutputSettings where
  /-- The directory of result files. -/
  baseDir : String
  /-- The formats, in lower case. -/
  formats : List String
deriving Repr, DecidableEq

/-- The settings of the program. -/
structure Settings where
  /-- What is logged. -/
  log : LogSettings
  /-- How queries are read. -/
  search : SearchSettings
  /-- Where the notes are. -/
  vault : VaultSettings
  /-- Where results go. -/
  output : OutputSettings
deriving Repr, DecidableEq

namespace Settings

/-! ## Reading the sections -/

/-- The section `log`. All its keys have to be there before their kinds are looked at. -/
def readLog (raw : Mapping) : Except SettingsFault LogSettings := do
  let s ← readSection raw "log"
  let level ← s.value "level"
  let toFile ← s.value "to_file"
  let dir ← s.value "dir"
  let level ← asString (s.dotted "level") level
  let toFile ← asBool (s.dotted "to_file") toFile
  let dir ← asString (s.dotted "dir") dir
  return ⟨Text.uppercase (Text.trimmed level), toFile, dir⟩

/-- The section `search`. -/
def readSearch (raw : Mapping) : Except SettingsFault SearchSettings := do
  let s ← readSection raw "search"
  let key ← s.string "default_key"
  let cap ← s.integer "max_clauses"
  return ⟨Text.lowercase (Text.trimmed key), cap⟩

/-- The section `vault`. Blank suffixes are left out. -/
def readVault (raw : Mapping) : Except SettingsFault VaultSettings := do
  let s ← readSection raw "vault"
  let extensions ← s.strings "extensions"
  let root ← s.string "root"
  let filled := extensions.filter (!Text.isBlankText ·)
  return ⟨root, filled.map fun e ↦ Text.lowercase (Text.trimmed e)⟩

/-- The section `output`. -/
def readOutput (raw : Mapping) : Except SettingsFault OutputSettings := do
  let s ← readSection raw "output"
  let formats ← s.strings "formats"
  let baseDir ← s.string "base_dir"
  return ⟨baseDir, formats.map Text.lowercase⟩

/-! ## Checks -/

/-- Refuses settings of the log that make no sense. -/
def checkLog (s : LogSettings) : Except SettingsFault Unit :=
  if !levelNames.contains s.level then .error (.level s.level)
  else if s.toFile && Text.isBlankText s.dir then .error .logDirectory
  else .ok ()

/-- Refuses settings of queries that make no sense. -/
def checkSearch (s : SearchSettings) : Except SettingsFault Unit :=
  if !defaultKeys.contains s.defaultKey then .error .defaultKey
  else if s.maxClauses < 0 then .error .negativeCap
  else .ok ()

/-- Refuses settings of the vault that make no sense. -/
def checkVault (s : VaultSettings) : Except SettingsFault Unit :=
  if Text.isBlankText s.root then .error .vaultRoot
  else if s.extensions.isEmpty then .error .noExtensions
  else
    match s.extensions.find? fun e ↦ e.toList.head? != some '.' with
    | some e => .error (.extension e)
    | none => .ok ()

/-- The formats that can be written. -/
def knownFormats : List String := ["console", "json"]

/-- Refuses settings of the output that make no sense. -/
def checkOutput (s : OutputSettings) : Except SettingsFault Unit :=
  let unknown := (Text.distinct s.formats).filter (!knownFormats.contains ·)
  if s.formats.isEmpty then .error .noFormats
  else if !unknown.isEmpty then .error (.unknownFormats (unknown.mergeSort fun a b ↦ a ≤ b))
  else if s.formats.contains "json" && Text.isBlankText s.baseDir then .error .outputDirectory
  else .ok ()

/-! ## Settings as a whole -/

/-- The settings that a mapping holds. -/
def ofMapping (raw : Mapping) : Except SettingsFault Settings := do
  let log ← readLog raw
  let search ← readSearch raw
  let vault ← readVault raw
  let output ← readOutput raw
  checkLog log
  checkSearch search
  checkVault vault
  checkOutput output
  return ⟨log, search, vault, output⟩

/-- The mapping that settings are written as. -/
def toMapping (s : Settings) : Mapping :=
  [(.str "log", .map [
      (.str "level", .str s.log.level), (.str "to_file", .bool s.log.toFile), (.str "dir", .str s.log.dir)]),
    (.str "search", .map [
      (.str "default_key", .str s.search.defaultKey), (.str "max_clauses", .int s.search.maxClauses)]),
    (.str "vault", .map [
      (.str "root", .str s.vault.root),
      (.str "extensions", .list (s.vault.extensions.map fun e : String ↦ .str e))]),
    (.str "output", .map [
      (.str "base_dir", .str s.output.baseDir),
      (.str "formats", .list (s.output.formats.map fun f : String ↦ .str f))])]

/-- The settings that hold where nothing else is said. -/
def default : Settings where
  log := ⟨"INFO", false, "log"⟩
  search := ⟨"default", 1024⟩
  vault := ⟨".", [".md"]⟩
  output := ⟨"output", ["console"]⟩

/-- The mapping that a settings file holds. What is not filled counts as empty. -/
def parseMapping (text : List Char) : Except SettingsFault Mapping :=
  match Yaml.parse text with
  | .error fault => .error (.yaml fault)
  | .ok (.map entries) => .ok entries
  | .ok v => if v.isFilled then .error .root else .ok []

/-- The settings that a text holds, laid over the defaults. -/
def ofText (text : List Char) : Except SettingsFault Settings := do
  let override ← parseMapping (Text.unifyLineEnds text)
  ofMapping (Mapping.merge default.toMapping override)

/-- The settings of a file. Malformed bytes are not replaced. -/
def ofBytes (bytes : List UInt8) : Except SettingsFault Settings :=
  match String.fromUTF8? ⟨bytes.toArray⟩ with
  | some text => ofText text.toList
  | none => .error .encoding

end Settings

end NoteQuery
