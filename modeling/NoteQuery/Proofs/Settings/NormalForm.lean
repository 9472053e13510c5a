import NoteQuery.Output.Writer
import NoteQuery.Proofs.Settings.Acceptance
import NoteQuery.Proofs.Text.Case
import NoteQuery.Search

/-!
# Accepted settings

Accepted settings are in normal form, so they are accepted again as they are when they are written down.
And they make sense to those who read them: every format has its writer, and there is at least one; the
cap of a search is none or positive.

Case and blanks are put in order before the checks in four different ways. What makes normal form stay
is that lower case neither makes nor loses a blank at the ends of a text, and that names in a fixed list
are checked one by one.
-/

namespace NoteQuery

/-! ## Texts in normal form -/

theorem Text.trimmed_lowercase_trimmed (s : String) :
    trimmed (lowercase (trimmed s)) = lowercase (trimmed s) := by
  rw [trimmed, lowercase, String.toList_ofList, trimmed, String.toList_ofList,
    trim_lower (trim_trim s.toList)]

theorem Text.lowercase_lowercase (s : String) : lowercase (lowercase s) = lowercase s :=
  lowercase_ofList_of_lower (lower_lower s.toList)

namespace Settings

variable {raw : Mapping} {s : Settings}

/-! ## Normal form -/

/-- Whether settings are in the form in which they are read. -/
structure IsNormal (s : Settings) : Prop where
  level : Text.uppercase (Text.trimmed s.log.level) = s.log.level
  defaultKey : Text.lowercase (Text.trimmed s.search.defaultKey) = s.search.defaultKey
  extensions : ∀ e ∈ s.vault.extensions,
    Text.isBlankText e = false ∧ Text.trimmed e = e ∧ Text.lowercase e = e
  formats : ∀ f ∈ s.output.formats, Text.lowercase f = f

theorem uppercase_trimmed_of_mem_levelNames :
    ∀ level ∈ levelNames, Text.uppercase (Text.trimmed level) = level := by
  decide +kernel

/-- A suffix that is not blank stays so, without blanks around it and in lower case. -/
theorem isNormal_extension {e : String} (h : Text.isBlankText e = false) :
    Text.isBlankText (Text.lowercase (Text.trimmed e)) = false ∧
      Text.trimmed (Text.lowercase (Text.trimmed e)) = Text.lowercase (Text.trimmed e) ∧
      Text.lowercase (Text.lowercase (Text.trimmed e)) = Text.lowercase (Text.trimmed e) := by
  have htrimmed := Text.trimmed_lowercase_trimmed e
  refine ⟨?_, htrimmed, Text.lowercase_lowercase _⟩
  rw [← Text.isEmpty_trimmed, htrimmed, Text.isEmpty_lowercase, Text.isEmpty_trimmed, h]

theorem isNormal_settings {w : Written} (h : w.settings.IsSensible) : w.settings.IsNormal where
  level := uppercase_trimmed_of_mem_levelNames _ h.level
  defaultKey := by
    rw [Written.settings, Text.trimmed_lowercase_trimmed, Text.lowercase_lowercase]
  extensions := by
    intro e he
    obtain ⟨e', he', rfl⟩ := List.mem_map.mp he
    rw [List.mem_filter, Bool.not_eq_true'] at he'
    exact isNormal_extension he'.2
  formats := by
    intro f hf
    obtain ⟨f', -, rfl⟩ := List.mem_map.mp hf
    exact Text.lowercase_lowercase f'

/-! ## Written and read again -/

theorem standsIn_toMapping (s : Settings) : (Written.ofSettings s).StandsIn s.toMapping where
  level := ⟨_, rfl, rfl⟩
  toFile := ⟨_, rfl, rfl⟩
  dir := ⟨_, rfl, rfl⟩
  defaultKey := ⟨_, rfl, rfl⟩
  maxClauses := ⟨_, rfl, rfl⟩
  root := ⟨_, rfl, rfl⟩
  extensions := ⟨_, rfl, by rw [Written.ofSettings, List.map_map]; rfl⟩
  baseDir := ⟨_, rfl, rfl⟩
  formats := ⟨_, rfl, by rw [Written.ofSettings, List.map_map]; rfl⟩

theorem map_mended_map_ofString (xs : List String) : (xs.map CodeText.ofString).map CodeText.mended = xs := by
  rw [List.map_map]
  exact (List.map_congr_left fun x _ ↦ CodeText.mended_ofString x).trans (List.map_id _)

theorem settings_ofSettings (h : s.IsNormal) : (Written.ofSettings s).settings = s := by
  have hfilled : s.vault.extensions.filter (!Text.isBlankText ·) = s.vault.extensions :=
    List.filter_eq_self.mpr fun e he ↦ by rw [(h.extensions e he).1]; rfl
  have hextensions : s.vault.extensions.map (fun e ↦ Text.lowercase (Text.trimmed e))
      = s.vault.extensions := by
    refine (List.map_congr_left fun e he ↦ ?_).trans (List.map_id _)
    rw [(h.extensions e he).2.1, (h.extensions e he).2.2, id]
  have hformats : s.output.formats.map Text.lowercase = s.output.formats :=
    (List.map_congr_left h.formats).trans (List.map_id _)
  simp only [Written.settings, Written.ofSettings, CodeText.mended_ofString, map_mended_map_ofString, h.level,
    h.defaultKey, hfilled, hextensions, hformats]

/-- **Written and read again.** Accepted settings are read from the mapping that they are written as. -/
theorem ofMapping_toMapping (h : ofMapping raw = .ok s) : ofMapping s.toMapping = .ok s := by
  obtain ⟨w, -, rfl, hsensible⟩ := ofMapping_eq_ok_iff.mp h
  exact ofMapping_eq_ok_iff.mpr
    ⟨_, standsIn_toMapping _, settings_ofSettings (isNormal_settings hsensible), hsensible⟩

/-! ## What settings are read for -/

theorem exists_ofFormat?_eq_some {f : String} (h : f ∈ knownFormats) (baseDir : String) :
    ∃ w, Writer.ofFormat? baseDir f = some w := by
  rw [knownFormats, List.mem_pair] at h
  obtain rfl | rfl := h
  · exact ⟨_, rfl⟩
  · exact ⟨_, rfl⟩

/-- **Writers.** There is one writer for every format, and at least one. -/
theorem exists_writers (h : s.IsSensible) : ∃ writers, Writer.create s.output = .ok writers ∧
    writers.map some = s.output.formats.map (Writer.ofFormat? s.output.baseDir) := by
  have hmap : (Writer.ofSettings s.output).map some
      = s.output.formats.map (Writer.ofFormat? s.output.baseDir) := by
    rw [Writer.ofSettings, List.map_filterMap_some_eq_filter_map_isSome, List.filter_eq_self]
    intro w hw
    obtain ⟨f, hf, rfl⟩ := List.mem_map.mp hw
    obtain ⟨w, hw⟩ := exists_ofFormat?_eq_some (h.formats f hf) s.output.baseDir
    rw [hw, Option.isSome_some]
  refine ⟨_, ?_, hmap⟩
  rw [Writer.create, if_neg]
  intro hempty
  rw [List.isEmpty_iff.mp hempty, List.map_nil] at hmap
  exact h.formats_ne_nil (List.map_eq_nil_iff.mp hmap.symm)

theorem lowercase_eq_self_of_mem_defaultKeys : ∀ key ∈ defaultKeys, Text.lowercase key = key := by
  decide +kernel

/-- **Searches.** The cap is none or positive, and the default key one of those that may be. -/
theorem search_ofSettings (h : s.IsSensible) :
    (∀ limit ∈ (Search.ofSettings s none).cap, 1 ≤ limit) ∧
      (Search.ofSettings s none).defaultKey ∈ defaultKeys := by
  constructor
  · intro limit hlimit
    rw [Search.ofSettings] at hlimit
    have hcap := h.maxClauses
    split at hlimit
    · exact nomatch hlimit
    · cases Option.mem_some.mp hlimit
      omega
  · have hkey : (Search.ofSettings s none).defaultKey = Text.lowercase s.search.defaultKey := rfl
    rw [hkey, lowercase_eq_self_of_mem_defaultKeys _ h.defaultKey]
    exact h.defaultKey

end Settings

/-- **Accepted settings.** They are read again from what is written for them; there is a writer for every
format, and at least one; a search has no cap or a positive one, and a default key that may be; there is
a suffix, and every suffix is trimmed, in lower case and begins with a point; the level is one of those of
the log. And settings are accepted whenever all their values are there, of the right kinds, and make sense
in normal form. -/
theorem accepted_settings (raw : Mapping) :
    (∀ s, Settings.ofMapping raw = .ok s →
      Settings.ofMapping s.toMapping = .ok s ∧
      (∃ writers, Writer.create s.output = .ok writers ∧
        writers.map some = s.output.formats.map (Writer.ofFormat? s.output.baseDir)) ∧
      ((∀ limit ∈ (Search.ofSettings s none).cap, 1 ≤ limit) ∧
        (Search.ofSettings s none).defaultKey ∈ Settings.defaultKeys) ∧
      (s.vault.extensions ≠ [] ∧ ∀ e ∈ s.vault.extensions,
        Text.lowercase e = e ∧ Text.trimmed e = e ∧ e.toList.head? = some '.') ∧
      s.log.level ∈ Settings.levelNames) ∧
    ∀ w : Settings.Written, w.StandsIn raw → w.settings.IsSensible →
      Settings.ofMapping raw = .ok w.settings := by
  constructor
  · intro s hs
    obtain ⟨w, -, rfl, hsensible⟩ := Settings.ofMapping_eq_ok_iff.mp hs
    have hnormal := Settings.isNormal_settings hsensible
    refine ⟨Settings.ofMapping_toMapping hs, Settings.exists_writers hsensible,
      Settings.search_ofSettings hsensible, ⟨hsensible.extensions_ne_nil, fun e he ↦ ?_⟩, hsensible.level⟩
    exact ⟨(hnormal.extensions e he).2.2, (hnormal.extensions e he).2.1, hsensible.extensions e he⟩
  · exact fun w hw hsensible ↦ Settings.ofMapping_eq_ok_iff.mpr ⟨w, hw, rfl, hsensible⟩

/-- Settings with capitals, blanks and a blank suffix are accepted in their normal form, and that again. -/
theorem accepted_settings_of_untidy :
    Settings.ofMapping
        (Settings.toMapping
          ⟨⟨" info", false, ""⟩, ⟨"TAG ", 0⟩, ⟨".", [" .Md", " "]⟩, ⟨"out", ["JSON", "Console"]⟩⟩)
      = .ok ⟨⟨"INFO", false, ""⟩, ⟨"tag", 0⟩, ⟨".", [".md"]⟩, ⟨"out", ["json", "console"]⟩⟩ ∧
    Settings.ofMapping
        (Settings.toMapping
          ⟨⟨"INFO", false, ""⟩, ⟨"tag", 0⟩, ⟨".", [".md"]⟩, ⟨"out", ["json", "console"]⟩⟩)
      = .ok ⟨⟨"INFO", false, ""⟩, ⟨"tag", 0⟩, ⟨".", [".md"]⟩, ⟨"out", ["json", "console"]⟩⟩ := by
  have hsettings : (Settings.Written.ofSettings
      ⟨⟨" info", false, ""⟩, ⟨"TAG ", 0⟩, ⟨".", [" .Md", " "]⟩, ⟨"out", ["JSON", "Console"]⟩⟩).settings
      = ⟨⟨"INFO", false, ""⟩, ⟨"tag", 0⟩, ⟨".", [".md"]⟩, ⟨"out", ["json", "console"]⟩⟩ := by
    decide +kernel
  have hsensible : Settings.IsSensible
      ⟨⟨"INFO", false, ""⟩, ⟨"tag", 0⟩, ⟨".", [".md"]⟩, ⟨"out", ["json", "console"]⟩⟩ :=
    ⟨by decide, by decide, by decide, by decide, by decide, by decide, by decide, by decide, by decide,
      by decide⟩
  have haccepted := (accepted_settings _).2 _ (Settings.standsIn_toMapping _) (hsettings ▸ hsensible)
  rw [hsettings] at haccepted
  exact ⟨haccepted, ((accepted_settings _).1 _ haccepted).1⟩

end NoteQuery
