import NoteQuery.Log
import NoteQuery.Matching.Trace
import NoteQuery.Search

/-!
# What an action leaves

An action says messages, writes files and prints text. All of it is kept in a journal, in order, and an
action is a function from one journal to the next that may fail on the way; what was said before a failure
stays said. Messages that no log would show are not made.
-/

namespace NoteQuery.Command

/-- What has been left so far. -/
structure Journal where
  /-- The messages. -/
  messages : List Log.Message
  /-- The files that are written: their names and texts. -/
  files : List (String × String)
  /-- The printed text. -/
  printed : String
deriving Repr

/-- Nothing is left yet. -/
def Journal.empty : Journal := ⟨[], [], ""⟩

/-- Files with one more written. A file of that name is written anew. -/
def Journal.withFile (files : List (String × String)) (name text : String) : List (String × String) :=
  files.filter (·.1 ≠ name) ++ [(name, text)]

/-- Why an action fails. -/
inductive Failure
  /-- The query is at fault. -/
  | query (fault : QueryFault)
  /-- Anything else, with what is said about it. -/
  | other (message : String)
deriving Repr, DecidableEq

/-- What is said about a failure of an action that is called `doing` in messages. -/
def Failure.message (doing : String) : Failure → String
  | query fault => "Invalid query: " ++ fault.message
  | other message => doing ++ " failed: " ++ message

/-- An action. -/
abbrev Action := ExceptT Failure (StateM Journal)

namespace Action

/-- Says messages. -/
def sayAll (messages : List Log.Message) : Action Unit :=
  modify fun j ↦ { j with messages := j.messages ++ messages }

/-- Says a message. -/
def say (level : Nat) (text : String) : Action Unit := sayAll [⟨level, text⟩]

/-- Says what happens while a query is applied, if the log shows it. -/
def tell (log : Log) (events : Unit → List Event) : Action Unit :=
  if log.threshold ≤ Log.debug then sayAll ((events ()).map fun e ↦ ⟨Log.debug, e.message⟩) else pure ()

/-- Writes a file. -/
def write (name text : String) : Action Unit :=
  modify fun j ↦ { j with files := Journal.withFile j.files name text }

/-- Prints a text. -/
def print (text : String) : Action Unit := modify fun j ↦ { j with printed := j.printed ++ text }

/-- The value of a computation, or its failure. -/
def ofExcept {ε α : Type} (failure : ε → Failure) : Except ε α → Action α
  | .ok a => pure a
  | .error e => throw (failure e)

/-- What an action leaves, and whether it fails. A failure is said as the last message. -/
def run (doing : String) (action : Action Unit) (before : Journal) : Journal × Bool :=
  match (ExceptT.run action) before with
  | (.ok (), j) => (j, false)
  | (.error failure, j) =>
    ({ j with messages := j.messages ++ [⟨Log.error, failure.message doing⟩] }, true)

end Action

end NoteQuery.Command
