import NoteQuery.Command.Actions
import NoteQuery.Command.Arguments
import NoteQuery.Host.Basic

/-!
# A run of the program

The arguments name a settings file, then a command with its own options. A run first looks whether the
settings file and the command are there, then reads the settings, then the arguments of the command. So
settings that are refused are reported before misused options of a command, and after a command that is not
known. A file or directory may also be named by a variable.

A run ends in one of three ways: the arguments are misused, the settings are refused, or a command has run.
-/

namespace NoteQuery.Command

/-- Why no command runs. -/
inductive Refusal
  /-- The arguments are misused. -/
  | misuse
  /-- The settings are refused. -/
  | settings (fault : SettingsFault)
deriving Repr, DecidableEq

/-- What a command that has run leaves. -/
structure Report where
  /-- Where its messages go. -/
  log : Log
  /-- What it has left. -/
  journal : Journal
  /-- Whether it was aborted. -/
  aborted : Bool

namespace Report

/-- The exit status. -/
def exitStatus (r : Report) : Nat := if r.aborted then 1 else 0

/-- The text of the error stream: what the console shows, and that the command was aborted. -/
def errorText (r : Report) (stamps : Stamps) : String :=
  r.log.consoleText stamps.line r.journal.messages ++ if r.aborted then "Aborted!\n" else ""

/-- The files that are written, the log file among them. -/
def files (r : Report) (stamps : Stamps) : List (String × String) :=
  match r.log.file with
  | none => r.journal.files
  | some name => Journal.withFile r.journal.files name (r.log.fileText stamps.line r.journal.messages)

end Report

/-! ## Arguments -/

/-- The option that names a settings file. -/
def settingsOption : KnownOption := ⟨"--config", true⟩

/-- The option that names a vault. -/
def vaultOption : KnownOption := ⟨"--vault", true⟩

/-- The option that names the field that bare words are tested against. -/
def keyOption : KnownOption := ⟨"--default-key", true⟩

/-- The option that has the folders shown. -/
def treeOption : KnownOption := ⟨"--tree", false⟩

/-- A command. -/
inductive CommandName
  /-- Search a vault. -/
  | search
  /-- Print the clauses of a query. -/
  | parse
deriving Repr, DecidableEq

namespace CommandName

/-- The command with a name. -/
def ofName? (name : String) : Option CommandName :=
  if name = "search" then some search else if name = "parse" then some parse else none

/-- The name of a command. -/
def name : CommandName → String
  | search => "search"
  | parse => "parse"

/-- The options that a command knows. -/
def options : CommandName → List KnownOption
  | search => [vaultOption, keyOption, treeOption]
  | parse => []

/-- What a command is called when it fails. -/
def doing : CommandName → String
  | search => "Search"
  | parse => "Parse"

end CommandName

/-! ## Running -/

variable {m : Type → Type} [Monad m]

/-- A step of a run. -/
abbrev Step (m : Type → Type) := ExceptT Refusal m

/-- What is there, or a misuse. -/
def orMisuse {α : Type} : Option α → Step m α
  | some a => pure a
  | none => throw .misuse

/-- A location given by an option or by a variable. There has to be something of a kind there. -/
def place (host : Host m) (kind : PlaceKind) (given : Option String) (variableName : String) :
    Step m (Option String) := do
  let named ← match given with
    | some location => pure (some location)
    | none => ExceptT.lift (host.filled? variableName)
  match named with
  | none => return none
  | some location =>
    if ← ExceptT.lift (host.holds kind location) then return some location else throw .misuse

/-- The settings of a file, or the default ones. -/
def loadSettings (host : Host m) : Option String → Step m Settings
  | none => pure Settings.default
  | some location => do
    let bytes ← ExceptT.lift (host.bytes location)
    match Settings.ofBytes bytes with
    | .ok settings => pure settings
    | .error fault => throw (.settings fault)

/-- The root of the vault that is searched: a given one as it is, that of the settings seen from the home
directory. -/
def vaultRoot (host : Host m) (settings : Settings) (given : Option String) : m (Option VaultRoot) := do
  let location? ← match given with
    | some location => pure (some (Location.normal location))
    | none => pure (Location.expandHome? (← host.variableValue? "HOME") settings.vault.root)
  match location? with
  | none => return none
  | some location => return some ⟨location, ← host.notesOf? settings.vault.extensions location⟩

/-- The report of an action. -/
def report (stamps : Stamps) (settings : Settings) (command : CommandName) (action : Log → Action Unit) :
    Report :=
  let s := settings.log
  let log := Log.configure s.level command.name s.toFile s.dir stamps.log
  let opened : List Log.Message := match log.file with
    | some name => [⟨Log.debug, "Logging " ++ command.name ++ " to " ++ name⟩]
    | none => []
  let (journal, aborted) := (action log).run command.doing ⟨opened, [], ""⟩
  ⟨log, journal, aborted⟩

/-- Runs a command with its arguments. -/
def runCommand (host : Host m) (stamps : Stamps) (settings : Settings) (command : CommandName)
    (arguments : List String) : Step m Report := do
  let a ← orMisuse (Arguments.read? command.options true arguments)
  let query := " ".intercalate a.words
  match command with
  | .search =>
    let given ← place host .directory (a.value? vaultOption.name) "NOTEFILTER_VAULT"
    let root ← ExceptT.lift (vaultRoot host settings given)
    let request : SearchRequest := ⟨query, a.value? keyOption.name, a.has treeOption.name⟩
    return report stamps settings command fun log ↦ Action.search log stamps.result settings root request
  | .parse => return report stamps settings command fun log ↦ Action.printClauses log settings query

/-- Runs the program with its arguments. -/
def run (host : Host m) (stamps : Stamps) (arguments : List String) : m (Except Refusal Report) := do
  let steps : Step m Report := do
    let a ← orMisuse (Arguments.read? [settingsOption] false arguments)
    let settingsFile ← place host .file (a.value? settingsOption.name) "NOTEFILTER_CONFIG"
    match a.words with
    | [] => throw .misuse
    | name :: rest =>
      let command ← orMisuse (CommandName.ofName? name)
      let settings ← loadSettings host settingsFile
      runCommand host stamps settings command rest
  steps.run

end NoteQuery.Command
