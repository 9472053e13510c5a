import NoteQuery.Output.Render
import NoteQuery.Proofs.Value.Numbers

/-!
# Records as JSON

The JSON form of a record can be told from its text if the numbers in its front matter are in canonical
form: its entries have distinct keys, its own parts are texts, and its front matter has one entry a key at
every depth.
-/

namespace NoteQuery.Output

open Json (IsExact)

theorem isExact_arr_map_str {α : Type} (f : α → CodeText) (xs : List α) :
    (Json.arr (xs.map fun x ↦ .str (f x))).IsExact :=
  .arr (List.forall_mem_map.mpr fun x _ ↦ .str (f x))

theorem gives_recordJson {r : Record} (h : ∀ e ∈ r.frontmatter, e.2.IsCanonical) :
    Gives (recordJson r) IsExact fun _ ↦ True := by
  have hfrontmatter : Gives (frontmatterJson r.frontmatter) IsExact fun _ ↦ True :=
    (Json.gives_ofEntries h).map fun es hes ↦ (Json.IsLegible.obj hes).isExact_normal
  have hkeys : (["path", "title", "tags", "references", "frontmatter"].map CodeText.ofString).Nodup :=
    List.Nodup.map (fun _ _ ↦ CodeText.ofString_inj.mp) (by decide)
  refine hfrontmatter.map fun j hj ↦ .obj hkeys ?_
  simp only [List.forall_mem_cons]
  exact ⟨.str _, .str _, isExact_arr_map_str id _, isExact_arr_map_str CodeText.ofString _, hj, nofun⟩

theorem isExact_of_json {records : List Record} (h : ∀ r ∈ records, ∀ e ∈ r.frontmatter, e.2.IsCanonical)
    {shown : List Json} (hshown : json records = .ok shown) : ∀ j ∈ shown, j.IsExact := by
  intro j hj
  obtain ⟨r, -, hexact⟩ := (Gives.mapM fun r hr ↦ gives_recordJson (h r hr)).value hshown j hj
  exact hexact

end NoteQuery.Output
