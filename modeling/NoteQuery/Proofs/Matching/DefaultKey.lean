import NoteQuery.Proofs.Query.Relabelling
import NoteQuery.Proofs.Query.Scanning

/-!
# The field of bare words

The field that bare words and phrases are tested against can be set when the query is read, or left
open and set when it is applied. In the first case their terms carry its name; in the second they
carry `Query.anyField`, a name that may also be written in the query. Both come to the same: once the
open name is resolved the terms are the same, and a term is tested as its resolved form is.

The reader looks at the default key nowhere but where it puts it into a term, so under two keys the
passes over a text take the same steps, and go wrong at the same place.
-/

namespace NoteQuery

namespace Scan

/-! ## Reading under two keys -/

/-- The pass with the term that it reads replaced. -/
def Pass.map (f : Term → Term) : Pass → Pass
  | done => done
  | «open» span => .open span
  | read token rest => read (token.map (Token.map f)) rest

section TwoKeys

variable {f : Term → Term} {key key' : List Char}
  (h : ∀ value neg, f ⟨String.ofList key, value, neg⟩ = f ⟨String.ofList key', value, neg⟩)

include h

theorem readWord_map (neg : Bool) (cs : List Char) :
    (readWord key neg cs).map f = (readWord key' neg cs).map f := by
  have hbare : ∀ value, Token.map f (termToken key value neg)
      = Token.map f (termToken key' value neg) := fun value ↦ congrArg Token.term (h _ neg)
  rw [readWord, readWord]
  split
  · rfl
  · split
    · rfl
    · split
      · rw [Pass.map, Pass.map, Option.map_some, Option.map_some, hbare]
      · rfl

theorem readToken_map (neg : Bool) (cs : List Char) :
    (readToken key neg cs).map f = (readToken key' neg cs).map f := by
  unfold readToken
  split
  · rfl
  · rfl
  · rfl
  · rfl
  · split
    · exact congrArg (fun t ↦ Pass.read (some (.term t)) _) (h _ neg)
    · rfl
  · exact readWord_map h neg _

theorem pass_map (cs : List Char) : (pass key cs).map f = (pass key' cs).map f := by
  rw [pass, pass]
  split
  · exact readToken_map h true _
  · exact readToken_map h false _

omit h in
/-- A text is read as its first pass comes out, also up to a relabelling. -/
theorem tokens_map_eq (f : Term → Term) (key cs : List Char) :
    (tokens key cs).map (List.map (Token.map f)) =
      match (pass key cs).map f with
      | .done => .ok []
      | .open span => .error span
      | .read token rest =>
        ((tokens key rest).map (List.map (Token.map f))).map (token.toList ++ ·) := by
  cases hp : pass key cs with
  | done =>
    rw [tokens_of_done hp]
    rfl
  | «open» span =>
    rw [tokens_of_open hp]
    rfl
  | read token rest =>
    rw [tokens_of_read hp]
    change _ = ((tokens key rest).map _).map ((token.map (Token.map f)).toList ++ ·)
    cases tokens key rest with
    | error span => rfl
    | ok ts =>
      cases token with
      | none => rfl
      | some t => rfl

/-- **One text, two keys.** Under two keys that a relabelling does not tell apart, a text has the same
tokens up to the relabelling, or the same span that never closes. -/
theorem tokens_map (cs : List Char) :
    (tokens key cs).map (List.map (Token.map f)) = (tokens key' cs).map (List.map (Token.map f)) := by
  rw [tokens_map_eq f key, tokens_map_eq f key', ← pass_map h]
  cases hp : pass key cs with
  | done => rfl
  | «open» span => rfl
  | read token rest =>
    -- both keys leave the same text to the passes that follow
    have hrest := tokens_map rest
    simp only [Pass.map, hrest]
termination_by cs.length
decreasing_by exact length_lt_of_pass hp

end TwoKeys

end Scan

/-! ## Resolving the open name -/

namespace Matching

/-- The term under the key that it is tested under. -/
def resolved (defaultKey : String) (t : Term) : Term := { t with key := resolvedKey defaultKey t }

theorem resolvedKey_resolved (defaultKey : String) (t : Term) :
    resolvedKey defaultKey (resolved defaultKey t) = resolvedKey defaultKey t := by
  change (if resolvedKey defaultKey t = Query.anyField then defaultKey else resolvedKey defaultKey t)
    = resolvedKey defaultKey t
  by_cases hopen : t.key = Query.anyField
  · rw [resolvedKey, if_pos hopen, ite_self]
  · rw [resolvedKey, if_neg hopen, if_neg hopen]

theorem termHolds_resolved (defaultKey : String) (s : Subject) (t : Term) :
    termHolds defaultKey s (resolved defaultKey t) = termHolds defaultKey s t := by
  rw [termHolds, termHolds, resolvedKey_resolved]
  rfl

theorem holds_map_resolved (q : Query) (defaultKey : String) (s : Subject) :
    holds (q.map (resolved (normalKey defaultKey))).clauses defaultKey s
      = holds q.clauses defaultKey s := by
  have hclause : (fun clause : Clause Term ↦ clause.allM (termHolds (normalKey defaultKey) s))
      ∘ List.map (resolved (normalKey defaultKey))
      = fun clause ↦ clause.allM (termHolds (normalKey defaultKey) s) := by
    funext clause
    rw [Function.comp_apply, allM_map]
    congr 1
    funext t
    exact termHolds_resolved _ s t
  rw [holds, holds, Query.map, List.isEmpty_map, anyM_map, hclause]

end Matching

/-- Read under a default key or under the open name, a text has the same tokens once the open name is
resolved to the key. -/
theorem tokenize_map_resolved (text : String) {key : String} (hkey : key ≠ "") :
    (tokenize text key).map (List.map (Token.map (Matching.resolved (Matching.normalKey key))))
      = (tokenize text Query.anyField).map
          (List.map (Token.map (Matching.resolved (Matching.normalKey key)))) := by
  have hnormal : Matching.normalKey key = String.ofList (Text.lower key.toList) := by
    rw [Matching.normalKey, if_neg (mt String.isEmpty_iff.mp hkey), Text.lowercase]
  have hopen : String.ofList (Text.lower Query.anyField.toList) = Query.anyField := rfl
  have hkeys : ∀ value neg,
      Matching.resolved (Matching.normalKey key) ⟨String.ofList (Text.lower key.toList), value, neg⟩
        = Matching.resolved (Matching.normalKey key)
            ⟨String.ofList (Text.lower Query.anyField.toList), value, neg⟩ := by
    intro value neg
    rw [← hnormal, hopen, Matching.resolved, Matching.resolved, Matching.resolvedKey,
      Matching.resolvedKey, if_pos rfl, ite_self]
  rw [tokenize, tokenize, ← mapError_map, Scan.tokens_map hkeys, mapError_map]

/-- **Early or late.** Whether the field of bare words is set when a query is read or when it is
applied, the same texts are refused with the same faults, and the queries that are read give the same
answer, or the same fault, on every subject. -/
theorem defaultKey_early_or_late (text : String) {key : String} (hkey : key ≠ "")
    (cap : Clauses.Cap) :
    (∀ fault, Query.parse text key cap = .error fault
      ↔ Query.parse text Query.anyField cap = .error fault) ∧
    ∀ early late, Query.parse text key cap = .ok early →
      Query.parse text Query.anyField cap = .ok late →
      ∀ s, Matching.holds early.clauses key s = Matching.holds late.clauses key s := by
  have hparse := Query.parse_map_congr (tokenize_map_resolved text hkey) cap
  constructor
  · intro fault
    constructor
    · intro h
      rw [h] at hparse
      exact eq_error_of_map_eq_error hparse.symm
    · intro h
      rw [h] at hparse
      exact eq_error_of_map_eq_error hparse
  · intro early late hearly hlate s
    rw [hearly, hlate] at hparse
    rw [← Matching.holds_map_resolved early, ← Matching.holds_map_resolved late,
      Except.ok.inj hparse]

/-- The query `a default:b` under the title: read early its first term names the title, read late it
leaves the name open. -/
theorem defaultKey_early_or_late_of_written_default :
    "Title" ≠ "" ∧
    Query.parse "a default:b" "Title" none
      = .ok ⟨[[⟨"title", "a", false⟩, ⟨"default", "b", false⟩]]⟩ ∧
    Query.parse "a default:b" Query.anyField none
      = .ok ⟨[[⟨"default", "a", false⟩, ⟨"default", "b", false⟩]]⟩ ∧
    ∀ s, Matching.holds [[⟨"title", "a", false⟩, ⟨"default", "b", false⟩]] "Title" s
      = Matching.holds [[⟨"default", "a", false⟩, ⟨"default", "b", false⟩]] "Title" s := by
  have hparse : ∀ key : String, Query.parse "a default:b" key none
      = .ok ⟨[[⟨String.ofList (Text.lower key.toList), "a", false⟩, ⟨"default", "b", false⟩]]⟩ := by
    intro key
    have ha : Scan.pass (Text.lower key.toList) "a default:b".toList
        = .read (some (Scan.termToken (Text.lower key.toList) ['a'] false)) " default:b".toList := rfl
    have hb : Scan.pass (Text.lower key.toList) " default:b".toList
        = .read (some (.term ⟨"default", "b", false⟩)) [] := rfl
    rw [Query.parse, tokenize, Scan.tokens_of_read ha, Scan.tokens_of_read hb, Scan.tokens_nil]
    change (Clauses.ofTree none (.node .and (.leaf _) (.leaf _))).map Query.mk = _
    rw [Clauses.ofTree_eq_clausesWithin, Tree.clausesWithin_none]
    rfl
  have hkey : "Title" ≠ "" := by decide
  exact ⟨hkey, hparse "Title", hparse Query.anyField,
    (defaultKey_early_or_late "a default:b" hkey none).2 _ _ (hparse "Title")
      (hparse Query.anyField)⟩

end NoteQuery
