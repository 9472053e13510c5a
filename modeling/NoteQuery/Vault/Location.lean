import NoteQuery.Text.Search

/-!
# Locations

The text of a location in a file system in normal form: no empty and no `.` segments, no slash at the
end. A location begins with a slash, or with exactly two, or with none. The segment `..` stays: what it
leads to depends on the files.
-/

namespace NoteQuery.Location

/-- The segments of a location that lead anywhere. -/
def segments (location : String) : List String :=
  ((Text.splitOn '/' location.toList).map String.ofList).filter fun s ↦ s ≠ "" ∧ s ≠ "."

/-- The slashes with which a location begins, in normal form: two stay two, more are one. -/
def root (location : String) : String :=
  match (location.toList.takeWhile (· = '/')).length with
  | 0 => ""
  | 2 => "//"
  | _ => "/"

/-- The location with given slashes in front and given segments; without either it is the place itself. -/
def build (root : String) (segments : List String) : String :=
  let text := root ++ "/".intercalate segments
  if text.isEmpty then "." else text

/-- The normal form of a location. -/
def normal (location : String) : String := build (root location) (segments location)

/-- The location that segments lead to from another. -/
def below (base : String) (path : List String) : String := build (root base) (segments base ++ path)

/-- A location seen from another. One that begins with a slash is its own. -/
def join (base location : String) : String :=
  if location.toList.head? = some '/' then normal location
  else below base (segments location)

/-- A location in which a tilde as first segment is replaced by the home directory, if that is known. The
home of somebody else is not. -/
def expandHome? (home : Option String) (location : String) : Option String :=
  match root location, segments location with
  | "", first :: rest =>
    if first = "~" then home.map fun h ↦ build (root h) (segments h ++ rest)
    else if first.toList.head? = some '~' then none
    else some (normal location)
  | _, _ => some (normal location)

end NoteQuery.Location
