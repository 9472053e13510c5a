import NoteQuery.Json.Printer
import NoteQuery.Text.Blank

/-!
# Property filters

A property filter `[name]` or `[name: expression]` travels as the operand of a term: a JSON object with
the name and, if there is one, the expression. The expression is a query of its own and is kept as text.
The name ends at the first colon outside quotes and parentheses.
-/

namespace NoteQuery.Property

/-- The operand of a property term. -/
def payload (name : String) (expression : Option String) : String :=
  let tail := match expression with
    | some e => [("expr", Json.str e)]
    | none => []
  (Json.obj (("name", .str name) :: tail)).compact.mended

/-- Looks for the first colon outside quotes at parenthesis depth zero. `before` is what has been passed,
last character first. -/
def splitColonFrom (before : List Char) (depth : Int) (inQuote : Bool) :
    List Char → List Char × Option (List Char)
  | [] => (before.reverse, none)
  | c :: rest =>
    if c = '"' then splitColonFrom (c :: before) depth (!inQuote) rest
    else if inQuote then splitColonFrom (c :: before) depth inQuote rest
    else if c = '(' then splitColonFrom (c :: before) (depth + 1) inQuote rest
    else if c = ')' then splitColonFrom (c :: before) (depth - 1) inQuote rest
    else if c = ':' && depth = 0 then (before.reverse, some rest)
    else splitColonFrom (c :: before) depth inQuote rest

/-- What stands before and after the first colon outside quotes and parentheses. -/
def splitColon (cs : List Char) : List Char × Option (List Char) := splitColonFrom [] 0 false cs

/-- The operand for the text between the brackets of a property filter. An expression that is missing or
empty is no expression. -/
def ofBracket (inner : List Char) : String :=
  match splitColon inner with
  | (name, some (c :: expression)) =>
    payload (String.ofList (Text.trim name)) (some (String.ofList (Text.trim (c :: expression))))
  | (name, _) => payload (String.ofList (Text.trim name)) none

end NoteQuery.Property
