import NoteQuery.Proofs.Value.Keys
import NoteQuery.Settings.Merge

/-!
# Settings laid over others

What a path of keys leads to after merging is told by where it leads in the two mappings. Where the upper
one has a value, that value stands, laid over what is below if both are mappings; where the upper one ends
in a mapping without the next key, the lower one stands. So one equation for a single key
(`Mapping.find?_merge`) carries over to paths.

The upper mapping has to be one that can be built: the entries of a list of pairs are laid over one after
the other, so a key that came twice would be looked up at its first place and stand with its last value.
-/

namespace NoteQuery

/-! ## Paths of keys -/

namespace Value

/-- Whether a value is a mapping. -/
def isMapping : Value → Bool
  | .map _ => true
  | _ => false

/-- The value that a path of keys leads to, through mappings. -/
def at? : Value → List Value → Option Value
  | v, [] => some v
  | .map entries, key :: path => (Mapping.find? entries key).bind (·.at? path)
  | _, _ :: _ => none

theorem at?_cons_of_not_isMapping {v : Value} (h : v.isMapping = false) (key : Value) (path : List Value) :
    v.at? (key :: path) = none := by
  cases v with
  | map entries => cases h
  | _ => rfl

theorem at?_append (v : Value) (path rest : List Value) :
    v.at? (path ++ rest) = (v.at? path).bind (·.at? rest) := by
  induction path generalizing v with
  | nil => rw [List.nil_append, at?, Option.bind_some]
  | cons key path ih =>
    cases v with
    | map entries =>
      rw [List.cons_append, at?, at?, Option.bind_assoc]
      exact congrArg _ (funext ih)
    | _ => rfl

/-- Whether a value can be built, as far as mappings go that are under keys of it: the keys of a mapping
can be keys, and no two of them are the same. -/
inductive IsProper : Value → Prop
  | map {entries : Mapping} (hashable : ∀ e ∈ entries, e.1.isHashable = true)
    (apart : entries.Pairwise fun e f ↦ sameKey e.1 f.1 = false) (values : ∀ e ∈ entries, IsProper e.2) :
    IsProper (.map entries)
  | other {v : Value} (h : v.isMapping = false) : IsProper v

theorem IsProper.at? {v : Value} (hv : v.IsProper) {path : List Value} {w : Value}
    (h : v.at? path = some w) : w.IsProper := by
  induction path generalizing v with
  | nil => exact Option.some.inj h ▸ hv
  | cons key path ih =>
    cases hv with
    | other hv =>
      rw [at?_cons_of_not_isMapping hv] at h
      cases h
    | map _ _ values =>
      obtain ⟨u, hu, hw⟩ := Option.bind_eq_some_iff.mp h
      obtain ⟨e, he, rfl⟩ := Mapping.exists_of_find?_eq_some hu
      exact ih (values e he) hw

theorem IsProper.apart {entries : Mapping} (h : (Value.map entries).IsProper) :
    entries.Pairwise fun e f ↦ sameKey e.1 f.1 = false := by
  cases h with
  | map _ apart _ => exact apart
  | other h => cases h

end Value

namespace Mapping

open Value (sameKey sameKey_comm sameKey_congr sameKey_self)

/-! ## Lookup in a proper mapping -/

theorem find?_eq_none {m : Mapping} {key : Value} (h : ∀ e ∈ m, sameKey key e.1 = false) :
    find? m key = none := by
  rw [find?, Option.map_eq_none_iff, List.find?_eq_none]
  exact fun e he ↦ ne_true_of_eq_false (h e he)

theorem find?_of_mem {m : Mapping} (hashable : ∀ e ∈ m, e.1.isHashable = true)
    (apart : m.Pairwise fun e f ↦ sameKey e.1 f.1 = false) {e : Value × Value} (he : e ∈ m) :
    find? m e.1 = some e.2 := by
  induction m with
  | nil => cases he
  | cons first m ih =>
    obtain ⟨hfirst, apart⟩ := List.pairwise_cons.mp apart
    obtain ⟨hself, hashable⟩ := List.forall_mem_cons.mp hashable
    rw [find?_cons]
    rcases List.mem_cons.mp he with rfl | he
    · rw [if_pos (sameKey_self hself)]
    · rw [sameKey_comm, hfirst e he, if_neg Bool.false_ne_true]
      exact ih hashable apart he

/-! ## One key -/

/-- **One key after merging.** What the upper mapping has under the key is laid over what is below; if it
has nothing there, what is below stands. -/
theorem find?_merge {override : Mapping} (apart : override.Pairwise fun e f ↦ sameKey e.1 f.1 = false)
    (base : Mapping) (key : Value) :
    find? (merge base override) key
      = (find? override key).elim (find? base key) fun v ↦ some (mergeValue (find? base key) v) := by
  induction override generalizing base with
  | nil => rfl
  | cons e override ih =>
    obtain ⟨first, v⟩ := e
    obtain ⟨hfirst, apart⟩ := List.pairwise_cons.mp apart
    rw [merge, ih apart, find?_insert, find?_cons]
    by_cases hsame : sameKey key first = true
    · have hrest : find? override key = none :=
        find?_eq_none fun f hf ↦ (sameKey_congr hsame f.1).trans (hfirst f hf)
      rw [hrest, if_pos hsame, if_pos hsame, Option.elim_none, Option.elim_some, find?_congr hsame]
    · rw [if_neg hsame, if_neg hsame]

/-- Keys keep the place they have below, new ones follow in the order they have above. -/
theorem keys_merge {override : Mapping} (apart : override.Pairwise fun e f ↦ sameKey e.1 f.1 = false)
    (base : Mapping) :
    (merge base override).map Prod.fst
      = base.map Prod.fst ++ (override.map Prod.fst).filter fun key ↦ (find? base key).isNone := by
  induction override generalizing base with
  | nil => exact (List.append_nil _).symm
  | cons e override ih =>
    obtain ⟨first, v⟩ := e
    obtain ⟨hfirst, apart⟩ := List.pairwise_cons.mp apart
    -- the entry that is put in is not in the way of the others
    have hothers : ∀ key ∈ override.map Prod.fst,
        (find? (insert base first (mergeValue (find? base first) v)) key).isNone
          = (find? base key).isNone := by
      intro key hkey
      obtain ⟨f, hf, rfl⟩ := List.mem_map.mp hkey
      rw [find?_insert, sameKey_comm, hfirst f hf, if_neg Bool.false_ne_true]
    rw [merge, ih apart, keys_insert, List.append_assoc, List.filter_congr hothers, List.map_cons,
      List.filter_cons]
    cases (find? base first).isNone <;> rfl

/-! ## Paths -/

theorem mergeValue_of_not_isMapping {v : Value} (h : v.isMapping = false) (below : Option Value) :
    mergeValue below v = v := by
  cases v with
  | map entries => cases h
  | _ => rfl

theorem mergeValue_none (v : Value) : mergeValue none v = v := by
  cases v <;> rfl

/-- **Paths after merging.** What the upper value has at a path is laid over what is below at that path. -/
theorem at?_mergeValue {v : Value} (hv : v.IsProper) (below : Option Value) {path : List Value} {w : Value}
    (h : v.at? path = some w) :
    (mergeValue below v).at? path = some (mergeValue (below.bind (·.at? path)) w) := by
  induction path generalizing v below with
  | nil =>
    obtain rfl := Option.some.inj h
    exact congrArg (fun o ↦ some (mergeValue o v)) (Option.bind_fun_some below).symm
  | cons key path ih =>
    cases hv with
    | other hv =>
      rw [Value.at?_cons_of_not_isMapping hv] at h
      cases h
    | @map entries _ apart values =>
      obtain ⟨u, hu, hw⟩ := Option.bind_eq_some_iff.mp h
      obtain ⟨e, he, rfl⟩ := exists_of_find?_eq_some hu
      -- below there is a mapping to look up the key in, or nothing at the path
      have habove : mergeValue (below.bind (·.at? (key :: path))) w = w →
          (Value.map entries).at? (key :: path) = some (mergeValue (below.bind (·.at? (key :: path))) w) :=
        fun hstands ↦ h.trans (congrArg some hstands.symm)
      cases below with
      | none => exact habove (mergeValue_none w)
      | some b =>
        cases b with
        | map base =>
          rw [mergeValue, Value.at?, find?_merge apart, hu, Option.elim_some, Option.bind_some,
            ih (values e he) _ hw]
          rfl
        | _ => exact habove (mergeValue_none w)

theorem at?_merge {override : Mapping} (h : (Value.map override).IsProper) (base : Mapping)
    {path : List Value} {w : Value} (hw : (Value.map override).at? path = some w) :
    (Value.map (merge base override)).at? path = some (mergeValue ((Value.map base).at? path) w) :=
  at?_mergeValue h (some (.map base)) hw

/-- Where the upper mapping ends in a mapping without the next key, the lower one stands. -/
theorem at?_merge_of_missing {override : Mapping} (h : (Value.map override).IsProper) (base : Mapping)
    {path : List Value} {m : Mapping} (hm : (Value.map override).at? path = some (.map m)) {key : Value}
    (hkey : find? m key = none) (rest : List Value) :
    (Value.map (merge base override)).at? (path ++ key :: rest)
      = (Value.map base).at? (path ++ key :: rest) := by
  have hmissing : (Value.map m).at? (key :: rest) = none := by rw [Value.at?, hkey, Option.bind_none]
  rw [Value.at?_append, Value.at?_append, at?_merge h base hm, Option.bind_some]
  cases (Value.map base).at? path with
  | none => rw [mergeValue_none, hmissing, Option.bind_none]
  | some b =>
    rw [Option.bind_some]
    cases b with
    | map b =>
      rw [mergeValue, Value.at?, Value.at?, find?_merge (h.at? hm).apart, hkey, Option.elim_none]
    | _ => exact hmissing

/-! ## Merging twice -/

/-- Entries whose values are there already, with whatever they would be laid over, change nothing. -/
theorem merge_eq_self {m entries : Mapping}
    (h : ∀ e ∈ entries, ∃ w, find? m e.1 = some w ∧ mergeValue (some w) e.2 = w) : merge m entries = m := by
  induction entries with
  | nil => rfl
  | cons e entries ih =>
    obtain ⟨⟨w, hw, hstands⟩, h⟩ := List.forall_mem_cons.mp h
    rw [merge, hw, hstands, insert_of_find? hw]
    exact ih h

theorem mergeValue_mergeValue {v : Value} (hv : v.IsProper) (below : Option Value) :
    mergeValue (some (mergeValue below v)) v = mergeValue below v := by
  induction hv generalizing below with
  | other hv => rw [mergeValue_of_not_isMapping hv, mergeValue_of_not_isMapping hv]
  | @map entries hashable apart _ ih =>
    have hover : ∀ base : Mapping, merge (merge base entries) entries = merge base entries := by
      intro base
      refine merge_eq_self fun e he ↦ ⟨_, ?_, ih e he (find? base e.1)⟩
      rw [find?_merge apart, find?_of_mem hashable apart he, Option.elim_some]
    have hself : merge entries entries = entries := by
      refine merge_eq_self fun e he ↦ ⟨e.2, find?_of_mem hashable apart he, ?_⟩
      have hvalue := ih e he none
      rwa [mergeValue_none] at hvalue
    have hstands : mergeValue (some (.map entries)) (.map entries) = .map entries := congrArg Value.map hself
    cases below with
    | none => exact hstands
    | some b =>
      cases b with
      | map base => exact congrArg Value.map (hover base)
      | _ => exact hstands

/-! ## The law -/

/-- **Settings laid over others.** A value of the upper mapping that is no mapping is found where its keys
lead. Where the upper mapping ends in a mapping that lacks the next key, one finds what is below. Mappings
on both sides give a mapping with the keys from below in their order, and then the new ones in theirs.
Laying the same mapping over once more changes nothing. -/
theorem merge_lays_over (base : Mapping) {override : Mapping} (h : (Value.map override).IsProper) :
    (∀ path v, (Value.map override).at? path = some v → v.isMapping = false →
      (Value.map (merge base override)).at? path = some v) ∧
    (∀ path m key rest, (Value.map override).at? path = some (.map m) → find? m key = none →
      (Value.map (merge base override)).at? (path ++ key :: rest)
        = (Value.map base).at? (path ++ key :: rest)) ∧
    (∀ path b o, (Value.map base).at? path = some (.map b) → (Value.map override).at? path = some (.map o) →
      ∃ m, (Value.map (merge base override)).at? path = some (.map m) ∧
        m.map Prod.fst
          = b.map Prod.fst ++ (o.map Prod.fst).filter fun key ↦ (find? b key).isNone) ∧
    merge (merge base override) override = merge base override := by
  refine ⟨fun path v hv hmapping ↦ ?_, fun path m key rest hm hkey ↦ ?_, fun path b o hb ho ↦ ?_, ?_⟩
  · rw [at?_merge h base hv, mergeValue_of_not_isMapping hmapping]
  · exact at?_merge_of_missing h base hm hkey rest
  · refine ⟨merge b o, ?_, keys_merge (h.at? ho).apart b⟩
    rw [at?_merge h base ho, hb, mergeValue]
  · exact Value.map.inj (mergeValue_mergeValue h (some (.map base)))

/-! ### A section and a truth value as keys -/

/-- A mapping with a section, and with an integer as key. -/
def lower : Mapping :=
  [(.str "search", .map [(.str "default_key", .str "text"), (.str "max_clauses", .int 64)]),
    (.int 1, .map [(.str "a", .null)]), (.str "log", .null)]

/-- A mapping with the same section in part, a section of its own, and the truth value that equals the
integer as key. -/
def upper : Mapping :=
  [(.str "log", .map [(.str "level", .null)]), (.bool true, .str "b"),
    (.str "search", .map [(.str "max_clauses", .null), (.str "cap", .map [])])]

theorem isProper_upper : (Value.map upper).IsProper := by
  refine .map (by decide) (by decide) ?_
  simp only [upper, List.forall_mem_cons]
  refine ⟨.map (by decide) (by decide) ?_, .other rfl, .map (by decide) (by decide) ?_, nofun⟩
  · exact List.forall_mem_singleton.mpr (.other rfl)
  · simp only [List.forall_mem_cons]
    exact ⟨.other rfl, .map nofun .nil nofun, nofun⟩

/-- The section is merged key by key, and a value of nothing stands like any other. The truth value finds
the integer, which stays the key, and its text takes the place of the mapping below. -/
theorem merge_lays_over_of_section :
    (Value.map (merge lower upper)).at? [.str "search", .str "max_clauses"] = some .null ∧
    (Value.map (merge lower upper)).at? [.str "search", .str "default_key"] = some (.str "text") ∧
    (∃ m, (Value.map (merge lower upper)).at? [.str "search"] = some (.map m) ∧
      m.map Prod.fst = [.str "default_key", .str "max_clauses", .str "cap"]) ∧
    (merge lower upper).map Prod.fst = [.str "search", .int 1, .str "log"] ∧
    merge (merge lower upper) upper = merge lower upper := by
  obtain ⟨hvalues, hmissing, hkeys, htwice⟩ := merge_lays_over lower isProper_upper
  refine ⟨hvalues [.str "search", .str "max_clauses"] .null rfl rfl,
    hmissing [.str "search"] _ (.str "default_key") [] rfl rfl, hkeys [.str "search"] _ _ rfl rfl, ?_, htwice⟩
  obtain ⟨m, hm, hmkeys⟩ := hkeys [] lower upper rfl rfl
  obtain rfl := Value.map.inj (Option.some.inj hm)
  exact hmkeys

end Mapping

end NoteQuery
