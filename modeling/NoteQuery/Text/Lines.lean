/-!
# Line ends

Two readings of line ends. A text file is read with one line end: carriage returns, alone or before a
line feed, become line feeds. A text shown line by line is cut at every boundary Unicode knows of, the
vertical tab and the information separators among them.
-/

namespace NoteQuery.Text

/-- Every line end written as a line feed. -/
def unifyLineEnds : List Char → List Char
  | '\r' :: '\n' :: rest => '\n' :: unifyLineEnds rest
  | '\r' :: rest => '\n' :: unifyLineEnds rest
  | c :: rest => c :: unifyLineEnds rest
  | [] => []

/-- Whether a character ends a line when a text is shown line by line. -/
def isLineBoundary (c : Char) : Bool :=
  let n := c.toNat
  (10 ≤ n && n ≤ 13) || (28 ≤ n && n ≤ 30) || n == 0x85 || n == 0x2028 || n == 0x2029

/-- The lines of a text, `line` being what is already read of the first of them, last character first.
A boundary at the very end opens no further line, and a carriage return with a line feed after it is
one boundary. -/
def linesFrom (line : List Char) : List Char → List (List Char)
  | [] => if line.isEmpty then [] else [line.reverse]
  | '\r' :: '\n' :: rest => line.reverse :: linesFrom [] rest
  | c :: rest => if isLineBoundary c then line.reverse :: linesFrom [] rest else linesFrom (c :: line) rest

/-- The lines of a text, without their ends. -/
def lines (s : String) : List String := (linesFrom [] s.toList).map String.ofList

end NoteQuery.Text
