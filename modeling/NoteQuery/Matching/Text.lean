import NoteQuery.Pattern.Literal
import NoteQuery.Text.Case
import NoteQuery.Text.Search

/-!
# Matching an operand against a text

An operand that is a pattern literal is searched for as a pattern; any other has to occur in the text,
both in lower case.
-/

namespace NoteQuery

/-- Whether an operand matches a text. -/
def matchesText (text operand : String) : Except PatternFault Bool :=
  match PatternLiteral.ofOperand? operand.toList with
  | some literal => literal.test text.toList
  | none => .ok (Text.occursIn (Text.lower operand.toList) (Text.lower text.toList))

end NoteQuery
