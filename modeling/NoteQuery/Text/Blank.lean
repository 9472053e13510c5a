/-!
# Blanks

What counts as white space in queries, tags and settings, and the trimming built on it. The class is
wider than ASCII: it holds the separators of Unicode, the next-line control and the four information
separators U+001C to U+001F.

Texts are taken apart as lists of characters, so that every law about a reader is an induction on the
list; the functions on `String` at the end are the same operations for callers.
-/

namespace NoteQuery.Text

/-- Whether a character is white space. -/
def isBlank (c : Char) : Bool :=
  let n := c.toNat
  (9 ≤ n && n ≤ 13) || (28 ≤ n && n ≤ 32) || n == 0x85 || n == 0xA0 || n == 0x1680 ||
    (0x2000 ≤ n && n ≤ 0x200A) || n == 0x2028 || n == 0x2029 || n == 0x202F || n == 0x205F ||
    n == 0x3000

/-- The text without its leading blanks. -/
def trimStart (cs : List Char) : List Char := cs.dropWhile isBlank

/-- The text without its trailing blanks. -/
def trimEnd (cs : List Char) : List Char := (cs.reverse.dropWhile isBlank).reverse

/-- The text without blanks at either end. -/
def trim (cs : List Char) : List Char := trimEnd (trimStart cs)

/-- The text without blanks at either end. -/
def trimmed (s : String) : String := String.ofList (trim s.toList)

/-- Whether a text holds nothing but blanks. -/
def isBlankText (s : String) : Bool := s.toList.all isBlank

end NoteQuery.Text
