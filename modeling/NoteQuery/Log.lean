import NoteQuery.Text.Case
import NoteQuery.Vault.Location

/-!
# The log

Messages have a level, a number that grows with their weight. The console shows those from a level on. A
log file, if there is one, shows all from the least named level on, whatever the console shows.

Without a level of its own a log takes over the level of warnings.
-/

namespace NoteQuery

namespace Log

/-! ## Levels -/

/-- The level of traces. -/
def debug : Nat := 10

/-- The level of news. -/
def info : Nat := 20

/-- The level of warnings. -/
def warning : Nat := 30

/-- The level of errors. -/
def error : Nat := 40

/-- The names of levels. -/
def levels : List (String × Nat) :=
  [("CRITICAL", 50), ("FATAL", 50), ("ERROR", error), ("WARN", warning), ("WARNING", warning), ("INFO", info),
    ("DEBUG", debug), ("NOTSET", 0)]

/-- The level with a name in any case; an unknown name stands for news. -/
def levelNamed (name : String) : Nat := (levels.lookup (Text.uppercase name)).getD info

/-- The four letters that stand for a level in a line. -/
def tag (level : Nat) : String :=
  match level with
  | 0 => "NOTS"
  | 10 => "DEBG"
  | 20 => "INFO"
  | 30 => "WARN"
  | 40 => "ERRO"
  | 50 => "ERRO"
  | _ => "Leve"

/-! ## Messages -/

/-- A message. -/
structure Message where
  /-- Its level. -/
  level : Nat
  /-- Its text. -/
  text : String
deriving Repr, DecidableEq

/-- A message as a line after the time of the run. -/
def Message.line (time : String) (m : Message) : String := time ++ "[" ++ tag m.level ++ "] " ++ m.text ++ "\n"

end Log

/-- Where messages go. -/
structure Log where
  /-- The least level that the console shows. -/
  console : Nat
  /-- The log file. -/
  file : Option String
deriving Repr, DecidableEq

namespace Log

/-- The name of the log file of an action. -/
def fileFor (directory action stamp : String) : String :=
  let directory := if directory.isEmpty then "log" else directory
  Location.join (Location.join directory action) (action ++ "_" ++ stamp ++ ".log")

/-- The log for a level, and for an action with a file of its own if one is wanted. -/
def configure (level action : String) (toFile : Bool) (directory stamp : String) : Log where
  console := levelNamed (if level.isEmpty then "INFO" else level)
  file := if toFile && !action.isEmpty then some (fileFor directory action stamp) else none

/-- The level that is set for the log as a whole. -/
def level (l : Log) : Nat := if l.file.isSome then debug else l.console

/-- The least level of messages that are not dropped at once. -/
def threshold (l : Log) : Nat := if l.level = 0 then warning else l.level

/-- The text of the messages from a level on. -/
def shownFrom (l : Log) (least : Nat) (time : String) (messages : List Message) : String :=
  String.join ((messages.filter fun m ↦ l.threshold ≤ m.level && least ≤ m.level).map (·.line time))

/-- What the console shows. -/
def consoleText (l : Log) (time : String) (messages : List Message) : String :=
  l.shownFrom l.console time messages

/-- What the log file holds. -/
def fileText (l : Log) (time : String) (messages : List Message) : String := l.shownFrom debug time messages

end Log

end NoteQuery
