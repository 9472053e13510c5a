import NoteQuery.Note.Reading
import NoteQuery.Proofs.Yaml.Parsing

/-!
# Reading notes

A note is read unless something in its block of front matter is to blame. Malformed YAML is not: the block
counts as empty then, as it does if it is no mapping, and the note keeps the body after it.
-/

namespace NoteQuery

/-- Whether front matter is that of a text. -/
inductive Frontmatter.IsOf (text : String) : Frontmatter → Prop
  /-- Without a block there are no entries, and the text is the body. -/
  | absent : Fence.split? text.toList = none → IsOf text ⟨[], text, none⟩
  /-- The entries are those of the mapping that the block is. -/
  | mapping {block body : List Char} {entries : Mapping} :
      Fence.split? text.toList = some (block, body) → Yaml.parse block = .ok (.map entries) →
      IsOf text ⟨withTextKeys entries, String.ofList body, none⟩
  /-- A block that is no mapping, be it malformed or not, has no entries. -/
  | passedOver {block body : List Char} {fault : Option Yaml.Fault} :
      Fence.split? text.toList = some (block, body) →
      (∀ entries, Yaml.parse block ≠ .ok (.map entries)) → IsOf text ⟨[], String.ofList body, fault⟩

/-- What is to blame for the fault of a note. -/
inductive Note.Blames (text : String) : Yaml.Fault → Prop
  /-- Something in the block. -/
  | block {block body : List Char} {fault : Yaml.Fault} :
      Fence.split? text.toList = some (block, body) → Yaml.Blames block fault → Blames text fault
  /-- A key that is an integer with too many digits, or has one in it. -/
  | key {block body : List Char} {entries : Mapping} {e : Value × Value} :
      Fence.split? text.toList = some (block, body) → Yaml.parse block = .ok (.map entries) →
      e ∈ entries → e.1.isWritable = false → Blames text .digits
  /-- A tag that is one. -/
  | tags {block body : List Char} {entries : Mapping} {v : Value} :
      Fence.split? text.toList = some (block, body) → Yaml.parse block = .ok (.map entries) →
      Tags.listed? (Frontmatter.withTextKeys entries) = some v → v.isWritable = false → Blames text .digits

theorem Frontmatter.gives_ofText (text : String) :
    Gives (ofText text) (IsOf text) (Note.Blames text) := by
  rw [ofText]
  split
  · rename_i hsplit
    exact .absent hsplit
  · rename_i block rest hsplit
    dsimp only
    split
    · rename_i entries hparse
      split
      · exact .mapping hsplit hparse
      · rename_i hkeys
        simp only [List.all_eq_true, not_forall] at hkeys
        obtain ⟨e, he, hkey⟩ := hkeys
        exact .key hsplit hparse he (Bool.eq_false_iff.mpr hkey)
    · rename_i value hmap hparse
      refine .passedOver hsplit fun entries h ↦ ?_
      exact hmap entries (Except.ok.inj (hparse.symm.trans h))
    · rename_i hparse
      exact .passedOver hsplit fun entries h ↦ nomatch hparse.symm.trans h
    · rename_i fault hfault hparse
      exact .block hsplit (((Yaml.gives_parse block).fault hparse).resolve_left hfault)

/-- **Reading a note.** It has the record of its front matter unless something is to blame. -/
theorem Note.gives_read (path text : String) :
    Gives (read path text) (fun note ↦ ∃ f, Frontmatter.IsOf text f ∧ note.record = f.record path)
      (Blames text) := by
  refine Gives.bind (Frontmatter.gives_ofText text) fun f hf ↦ ?_
  split
  · exact ⟨f, hf, rfl⟩
  · rename_i htags
    rw [Tags.areWritable] at htags
    cases hf with
    | absent => exact absurd rfl htags
    | passedOver => exact absurd rfl htags
    | mapping hsplit hparse =>
      cases hlisted : Tags.listed? (Frontmatter.withTextKeys _) with
      | none =>
        rw [hlisted] at htags
        exact absurd rfl htags
      | some v =>
        rw [hlisted] at htags
        exact .tags hsplit hparse hlisted (Bool.eq_false_iff.mpr htags)

end NoteQuery
