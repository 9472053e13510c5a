import NoteQuery.Value.Basic

/-!
# Mappings

Keys are compared by what they stand for: truth values and whole floats are equal to integers, and
date-times to others of the same instant. What is no number is a key like any other: a reader of texts
makes it once, and a key is found again where it is itself. An entry put under a key that is there keeps
the key and its place and takes the new value.
-/

namespace NoteQuery

namespace Value

/-! ## Equality of keys -/

/-- The integer a key is equal to, if it is one. -/
def wholeNumber? : Value → Option Int
  | bool b => some (if b then 1 else 0)
  | int n => some n
  | float x => x.toInt?
  | _ => none

mutual

/-- Whether two values are the same key. -/
def sameKey : Value → Value → Bool
  | .str s, .str t => s == t
  | .null, .null => true
  | .date d, .date e => d == e
  | .datetime s, .datetime t => Calendar.sameMoment s t
  | .bytes bs, .bytes cs => bs == cs
  | .tuple xs, .tuple ys => sameKeys xs ys
  | .float x, .float y =>
    match x.toInt?, y.toInt? with
    | some m, some n => m == n
    | _, _ => x == y
  | a, b =>
    match a.wholeNumber?, b.wholeNumber? with
    | some m, some n => m == n
    | _, _ => false

/-- Whether two lists hold the same keys, place by place. -/
def sameKeys : List Value → List Value → Bool
  | [], [] => true
  | x :: xs, y :: ys => sameKey x y && sameKeys xs ys
  | _, _ => false

end

/-- Whether a value can be a key: lists, mappings and sets cannot, nor can a tuple that holds one. -/
def isHashable : Value → Bool
  | list _ | map _ | set _ => false
  | tuple xs => hashables xs
  | _ => true
where
  /-- Whether all values of a list can be keys. -/
  hashables : List Value → Bool
    | [] => true
    | x :: xs => isHashable x && hashables xs

end Value

namespace Mapping

/-- The value under a key. -/
def find? (m : Mapping) (key : Value) : Option Value :=
  (List.find? (fun entry ↦ Value.sameKey key entry.1) m).map Prod.snd

/-- The value under a text as key. -/
def get? (m : Mapping) (key : String) : Option Value := find? m (.str key)

/-- Puts a value under a key: in the place of an equal key, which stays, or at the end. -/
def insert : Mapping → Value → Value → Mapping
  | [], key, value => [(key, value)]
  | (k, v) :: rest, key, value =>
    if Value.sameKey key k then (k, value) :: rest else (k, v) :: insert rest key value

/-- The mapping with these entries, put in one after the other. -/
def ofEntries (entries : List (Value × Value)) : Mapping :=
  entries.foldl (fun m entry ↦ insert m entry.1 entry.2) []

end Mapping

end NoteQuery
