import NoteQuery.Proofs.Outcome
import NoteQuery.Proofs.Text.Distinct
import NoteQuery.Settings.Basic

/-!
# What settings are accepted

A mapping is accepted when all keys of its sections are there with values of the right kinds, and what
these come to in normal form makes sense. `Written` holds the values as they stand in a mapping,
`Written.settings` is their normal form, and `IsSensible` says what the checks ask for. Each reader and
each check has one lemma that says when it succeeds; `ofMapping_eq_ok_iff` puts them together.
-/

namespace NoteQuery.Settings

/-! ## Values under their keys -/

/-- Whether a section of a mapping has a value under a key. -/
def HasAt (raw : Mapping) (name key : String) (v : Value) : Prop :=
  ∃ entries, Mapping.get? raw name = some (.map entries) ∧ Mapping.get? entries key = some v

theorem HasAt.get?_eq_some {raw entries : Mapping} {name key : String} {v : Value}
    (h : HasAt raw name key v) (hsection : Mapping.get? raw name = some (.map entries)) :
    Mapping.get? entries key = some v := by
  obtain ⟨entries', hsection', hkey⟩ := h
  obtain rfl := Value.map.inj (Option.some.inj (hsection.symm.trans hsection'))
  exact hkey

theorem readSection_eq_ok_iff {raw : Mapping} {name : String} {s : Section} :
    readSection raw name = .ok s ↔ Mapping.get? raw name = some (.map s.entries) ∧ s.name = name := by
  obtain ⟨sname, entries⟩ := s
  rw [readSection, section?]
  constructor
  · intro h
    split at h
    · exact nomatch h
    · rename_i found hfound
      obtain ⟨rfl, rfl⟩ := Section.mk.inj (Except.ok.inj h)
      refine ⟨?_, rfl⟩
      cases hget : Mapping.get? raw name with
      | none =>
        rw [hget] at hfound
        exact nomatch hfound
      | some v =>
        rw [hget] at hfound
        exact congrArg some hfound
    · exact nomatch h
  · rintro ⟨hget, rfl⟩
    rw [hget]
    rfl

section

variable {s : Section} {key : String}

theorem value_eq_ok_iff {v : Value} : s.value key = .ok v ↔ Mapping.get? s.entries key = some v := by
  rw [Section.value]
  cases Mapping.get? s.entries key with
  | none => exact ⟨fun h ↦ (nomatch h), fun h ↦ (nomatch h)⟩
  | some found => exact ⟨fun h ↦ congrArg some (Except.ok.inj h), fun h ↦ congrArg _ (Option.some.inj h)⟩

theorem asString_eq_ok_iff {v : Value} {x : String} :
    asString key v = .ok x ↔ ∃ t, v = .str t ∧ t.mended = x := by
  constructor
  · intro h
    cases v with
    | str t => exact ⟨t, rfl, Except.ok.inj h⟩
    | _ => exact nomatch h
  · rintro ⟨t, rfl, rfl⟩
    rfl

theorem asBool_eq_ok_iff {v : Value} {b : Bool} : asBool key v = .ok b ↔ v = .bool b := by
  constructor
  · intro h
    cases v with
    | bool found => exact congrArg _ (Except.ok.inj h)
    | _ => exact nomatch h
  · rintro rfl
    rfl

theorem asInt_eq_ok_iff {v : Value} {n : Int} : asInt key v = .ok n ↔ v = .int n := by
  constructor
  · intro h
    cases v with
    | int found => exact congrArg _ (Except.ok.inj h)
    | _ => exact nomatch h
  · rintro rfl
    rfl

theorem itemsFrom_eq_ok_iff {index : Nat} {items : List Value} {xs : List String} :
    itemsFrom key index items = .ok xs ↔
      ∃ ts : List CodeText, items = ts.map Value.str ∧ ts.map CodeText.mended = xs := by
  induction items generalizing index xs with
  | nil =>
    rw [itemsFrom]
    refine ⟨fun h ↦ ⟨[], rfl, Except.ok.inj h⟩, ?_⟩
    rintro ⟨ts, hts, rfl⟩
    rw [List.map_eq_nil_iff.mp hts.symm, List.map_nil]
  | cons v items ih =>
    rw [itemsFrom]
    simp only [bind_eq_ok_iff, asString_eq_ok_iff, ih]
    constructor
    · rintro ⟨_, ⟨t, rfl, rfl⟩, _, ⟨ts, rfl, rfl⟩, hxs⟩
      exact ⟨t :: ts, rfl, Except.ok.inj hxs⟩
    · rintro ⟨ts, hts, rfl⟩
      obtain ⟨t, rest, rfl, rfl, rfl⟩ := List.map_eq_cons_iff.mp hts.symm
      exact ⟨t.mended, ⟨t, rfl, rfl⟩, rest.map CodeText.mended, ⟨rest, rfl, rfl⟩, rfl⟩

theorem asStrings_eq_ok_iff {v : Value} {xs : List String} :
    asStrings key v = .ok xs ↔
      ∃ ts : List CodeText, v = .list (ts.map Value.str) ∧ ts.map CodeText.mended = xs := by
  constructor
  · intro h
    cases v with
    | list items =>
      obtain ⟨ts, rfl, hxs⟩ := itemsFrom_eq_ok_iff.mp h
      exact ⟨ts, rfl, hxs⟩
    | _ => exact nomatch h
  · rintro ⟨ts, rfl, hxs⟩
    exact itemsFrom_eq_ok_iff.mpr ⟨ts, rfl, hxs⟩

theorem string_eq_ok_iff {x : String} :
    s.string key = .ok x ↔ ∃ t, Mapping.get? s.entries key = some (.str t) ∧ t.mended = x := by
  simp only [Section.string, bind_eq_ok_iff, value_eq_ok_iff, asString_eq_ok_iff]
  constructor
  · rintro ⟨_, hget, t, rfl, hx⟩
    exact ⟨t, hget, hx⟩
  · rintro ⟨t, hget, hx⟩
    exact ⟨_, hget, t, rfl, hx⟩

theorem integer_eq_ok_iff {n : Int} :
    s.integer key = .ok n ↔ Mapping.get? s.entries key = some (.int n) := by
  simp only [Section.integer, bind_eq_ok_iff, value_eq_ok_iff, asInt_eq_ok_iff, exists_eq_right]

theorem strings_eq_ok_iff {xs : List String} :
    s.strings key = .ok xs ↔ ∃ ts : List CodeText,
      Mapping.get? s.entries key = some (.list (ts.map Value.str)) ∧ ts.map CodeText.mended = xs := by
  simp only [Section.strings, bind_eq_ok_iff, value_eq_ok_iff, asStrings_eq_ok_iff]
  constructor
  · rintro ⟨_, hget, ts, rfl, hxs⟩
    exact ⟨ts, hget, hxs⟩
  · rintro ⟨ts, hget, hxs⟩
    exact ⟨_, hget, ts, rfl, hxs⟩

end

/-! ## What is written -/

/-- The values of settings as they stand in a mapping. -/
structure Written where
  /-- The level of the log. -/
  level : CodeText
  /-- Whether everything goes into a file too. -/
  toFile : Bool
  /-- The directory of log files. -/
  dir : CodeText
  /-- The field that bare words are tested against. -/
  defaultKey : CodeText
  /-- The cap on clauses. -/
  maxClauses : Int
  /-- The root directory. -/
  root : CodeText
  /-- The suffixes of notes. -/
  extensions : List CodeText
  /-- The directory of result files. -/
  baseDir : CodeText
  /-- The formats. -/
  formats : List CodeText

namespace Written

/-- Whether these are the values that stand in a mapping: every key is there, with a value of its kind. -/
structure StandsIn (w : Written) (raw : Mapping) : Prop where
  level : HasAt raw "log" "level" (.str w.level)
  toFile : HasAt raw "log" "to_file" (.bool w.toFile)
  dir : HasAt raw "log" "dir" (.str w.dir)
  defaultKey : HasAt raw "search" "default_key" (.str w.defaultKey)
  maxClauses : HasAt raw "search" "max_clauses" (.int w.maxClauses)
  root : HasAt raw "vault" "root" (.str w.root)
  extensions : HasAt raw "vault" "extensions" (.list (w.extensions.map Value.str))
  baseDir : HasAt raw "output" "base_dir" (.str w.baseDir)
  formats : HasAt raw "output" "formats" (.list (w.formats.map Value.str))

/-- The settings in normal form. -/
def settings (w : Written) : Settings where
  log := ⟨Text.uppercase (Text.trimmed w.level.mended), w.toFile, w.dir.mended⟩
  search := ⟨Text.lowercase (Text.trimmed w.defaultKey.mended), w.maxClauses⟩
  vault := ⟨w.root.mended, ((w.extensions.map CodeText.mended).filter (!Text.isBlankText ·)).map
    fun e ↦ Text.lowercase (Text.trimmed e)⟩
  output := ⟨w.baseDir.mended, (w.formats.map CodeText.mended).map Text.lowercase⟩

/-- The values that are written for settings. -/
def ofSettings (s : Settings) : Written where
  level := s.log.level
  toFile := s.log.toFile
  dir := s.log.dir
  defaultKey := s.search.defaultKey
  maxClauses := s.search.maxClauses
  root := s.vault.root
  extensions := s.vault.extensions.map CodeText.ofString
  baseDir := s.output.baseDir
  formats := s.output.formats.map CodeText.ofString

end Written

/-! ## Readers -/

section

variable {raw : Mapping}

theorem readLog_eq_ok_iff {s : LogSettings} :
    readLog raw = .ok s ↔ ∃ level toFile dir, HasAt raw "log" "level" (.str level) ∧
      HasAt raw "log" "to_file" (.bool toFile) ∧ HasAt raw "log" "dir" (.str dir) ∧
      s = ⟨Text.uppercase (Text.trimmed level.mended), toFile, dir.mended⟩ := by
  simp only [readLog, bind_eq_ok_iff, readSection_eq_ok_iff, value_eq_ok_iff, asString_eq_ok_iff,
    asBool_eq_ok_iff]
  constructor
  · rintro ⟨sec, ⟨hsection, -⟩, _, hlevel, _, htoFile, _, hdir, _, ⟨level, rfl, rfl⟩, toFile, rfl,
      _, ⟨dir, rfl, rfl⟩, hs⟩
    exact ⟨level, toFile, dir, ⟨_, hsection, hlevel⟩, ⟨_, hsection, htoFile⟩, ⟨_, hsection, hdir⟩,
      (Except.ok.inj hs).symm⟩
  · rintro ⟨level, toFile, dir, ⟨entries, hsection, hlevel⟩, htoFile, hdir, rfl⟩
    exact ⟨⟨"log", entries⟩, ⟨hsection, rfl⟩, _, hlevel, _, htoFile.get?_eq_some hsection, _,
      hdir.get?_eq_some hsection, _, ⟨level, rfl, rfl⟩, toFile, rfl, _, ⟨dir, rfl, rfl⟩, rfl⟩

theorem readSearch_eq_ok_iff {s : SearchSettings} :
    readSearch raw = .ok s ↔ ∃ key cap, HasAt raw "search" "default_key" (.str key) ∧
      HasAt raw "search" "max_clauses" (.int cap) ∧
      s = ⟨Text.lowercase (Text.trimmed key.mended), cap⟩ := by
  simp only [readSearch, bind_eq_ok_iff, readSection_eq_ok_iff, string_eq_ok_iff, integer_eq_ok_iff]
  constructor
  · rintro ⟨sec, ⟨hsection, -⟩, _, ⟨key, hkey, rfl⟩, cap, hcap, hs⟩
    exact ⟨key, cap, ⟨_, hsection, hkey⟩, ⟨_, hsection, hcap⟩, (Except.ok.inj hs).symm⟩
  · rintro ⟨key, cap, ⟨entries, hsection, hkey⟩, hcap, rfl⟩
    exact ⟨⟨"search", entries⟩, ⟨hsection, rfl⟩, _, ⟨key, hkey, rfl⟩, cap, hcap.get?_eq_some hsection, rfl⟩

theorem readVault_eq_ok_iff {s : VaultSettings} :
    readVault raw = .ok s ↔ ∃ (root : CodeText) (extensions : List CodeText),
      HasAt raw "vault" "root" (.str root) ∧
      HasAt raw "vault" "extensions" (.list (extensions.map Value.str)) ∧
      s = ⟨root.mended, ((extensions.map CodeText.mended).filter (!Text.isBlankText ·)).map
        fun e ↦ Text.lowercase (Text.trimmed e)⟩ := by
  simp only [readVault, bind_eq_ok_iff, readSection_eq_ok_iff, string_eq_ok_iff, strings_eq_ok_iff]
  constructor
  · rintro ⟨sec, ⟨hsection, -⟩, _, ⟨extensions, hextensions, rfl⟩, _, ⟨root, hroot, rfl⟩, hs⟩
    exact ⟨root, extensions, ⟨_, hsection, hroot⟩, ⟨_, hsection, hextensions⟩,
      (Except.ok.inj hs).symm⟩
  · rintro ⟨root, extensions, ⟨entries, hsection, hroot⟩, hextensions, rfl⟩
    exact ⟨⟨"vault", entries⟩, ⟨hsection, rfl⟩, _, ⟨extensions, hextensions.get?_eq_some hsection, rfl⟩, _,
      ⟨root, hroot, rfl⟩, rfl⟩

theorem readOutput_eq_ok_iff {s : OutputSettings} :
    readOutput raw = .ok s ↔ ∃ (baseDir : CodeText) (formats : List CodeText),
      HasAt raw "output" "base_dir" (.str baseDir) ∧
      HasAt raw "output" "formats" (.list (formats.map Value.str)) ∧
      s = ⟨baseDir.mended, (formats.map CodeText.mended).map Text.lowercase⟩ := by
  simp only [readOutput, bind_eq_ok_iff, readSection_eq_ok_iff, string_eq_ok_iff, strings_eq_ok_iff]
  constructor
  · rintro ⟨sec, ⟨hsection, -⟩, _, ⟨formats, hformats, rfl⟩, _, ⟨baseDir, hbaseDir, rfl⟩, hs⟩
    exact ⟨baseDir, formats, ⟨_, hsection, hbaseDir⟩, ⟨_, hsection, hformats⟩,
      (Except.ok.inj hs).symm⟩
  · rintro ⟨baseDir, formats, ⟨entries, hsection, hbaseDir⟩, hformats, rfl⟩
    exact ⟨⟨"output", entries⟩, ⟨hsection, rfl⟩, _, ⟨formats, hformats.get?_eq_some hsection, rfl⟩, _,
      ⟨baseDir, hbaseDir, rfl⟩, rfl⟩

end

/-! ## Checks -/

/-- Whether settings make sense. -/
structure IsSensible (s : Settings) : Prop where
  level : s.log.level ∈ levelNames
  /-- A directory is named if the log goes into files. -/
  dir : s.log.toFile = true → Text.isBlankText s.log.dir = false
  defaultKey : s.search.defaultKey ∈ defaultKeys
  maxClauses : 0 ≤ s.search.maxClauses
  root : Text.isBlankText s.vault.root = false
  extensions_ne_nil : s.vault.extensions ≠ []
  extensions : ∀ e ∈ s.vault.extensions, e.toList.head? = some '.'
  formats_ne_nil : s.output.formats ≠ []
  formats : ∀ f ∈ s.output.formats, f ∈ knownFormats
  /-- A directory is named if results go into files. -/
  baseDir : "json" ∈ s.output.formats → Text.isBlankText s.output.baseDir = false

theorem checkLog_eq_ok_iff {s : LogSettings} :
    checkLog s = .ok () ↔ s.level ∈ levelNames ∧ (s.toFile = true → Text.isBlankText s.dir = false) := by
  simp only [checkLog, ite_error_eq_ok_iff, Bool.not_eq_true', Bool.not_eq_false, List.contains_iff_mem,
    Bool.and_eq_true, not_and, Bool.not_eq_true, and_true]

theorem checkSearch_eq_ok_iff {s : SearchSettings} :
    checkSearch s = .ok () ↔ s.defaultKey ∈ defaultKeys ∧ 0 ≤ s.maxClauses := by
  simp only [checkSearch, ite_error_eq_ok_iff, Bool.not_eq_true', Bool.not_eq_false,
    List.contains_iff_mem, Int.not_lt, and_true]

theorem checkVault_eq_ok_iff {s : VaultSettings} :
    checkVault s = .ok () ↔ Text.isBlankText s.root = false ∧ s.extensions ≠ [] ∧
      ∀ e ∈ s.extensions, e.toList.head? = some '.' := by
  simp only [checkVault, ite_error_eq_ok_iff, Bool.not_eq_true, List.isEmpty_iff]
  refine and_congr Iff.rfl (and_congr Iff.rfl ?_)
  split
  · rename_i e hfound
    have hpoint : ¬e.toList.head? = some '.' :=
      bne_iff_ne.mp (List.find?_some (p := fun e : String ↦ e.toList.head? != some '.') hfound)
    exact ⟨fun h ↦ (nomatch h), fun h ↦ absurd (h e (List.mem_of_find?_eq_some hfound)) hpoint⟩
  · rename_i hnone
    refine ⟨fun _ e he ↦ ?_, fun _ ↦ rfl⟩
    simpa only [bne_iff_ne, ne_eq, not_not] using List.find?_eq_none.mp hnone e he

theorem checkOutput_eq_ok_iff {s : OutputSettings} :
    checkOutput s = .ok () ↔ s.formats ≠ [] ∧ (∀ f ∈ s.formats, f ∈ knownFormats) ∧
      ("json" ∈ s.formats → Text.isBlankText s.baseDir = false) := by
  have hunknown : (Text.distinct s.formats).filter (!knownFormats.contains ·) = [] ↔
      ∀ f ∈ s.formats, f ∈ knownFormats := by
    simp only [List.filter_eq_nil_iff, Text.mem_distinct, Bool.not_eq_true', Bool.not_eq_false,
      List.contains_iff_mem]
  simp only [checkOutput, ite_error_eq_ok_iff, List.isEmpty_iff, Bool.not_eq_true', Bool.not_eq_false,
    hunknown, Bool.and_eq_true, List.contains_iff_mem, not_and, Bool.not_eq_true, and_true, ne_eq]

/-! ## Settings as a whole -/

/-- **Acceptance.** A mapping is accepted exactly when all its values are there, of the right kinds, and
make sense in normal form; the settings are that normal form. -/
theorem ofMapping_eq_ok_iff {raw : Mapping} {s : Settings} :
    ofMapping raw = .ok s ↔ ∃ w : Written, w.StandsIn raw ∧ w.settings = s ∧ s.IsSensible := by
  simp only [ofMapping, bind_eq_ok_iff, readLog_eq_ok_iff, readSearch_eq_ok_iff, readVault_eq_ok_iff,
    readOutput_eq_ok_iff]
  constructor
  · rintro ⟨log, ⟨level, toFile, dir, hlevel, htoFile, hdir, rfl⟩, search,
      ⟨key, cap, hkey, hcap, rfl⟩, vault, ⟨root, extensions, hroot, hextensions, rfl⟩, output,
      ⟨baseDir, formats, hbaseDir, hformats, rfl⟩, _, hlog, _, hsearch, _, hvault, _, houtput, hs⟩
    obtain ⟨hlog, hlog'⟩ := checkLog_eq_ok_iff.mp hlog
    obtain ⟨hsearch, hsearch'⟩ := checkSearch_eq_ok_iff.mp hsearch
    obtain ⟨hvault, hvault', hvault''⟩ := checkVault_eq_ok_iff.mp hvault
    obtain ⟨houtput, houtput', houtput''⟩ := checkOutput_eq_ok_iff.mp houtput
    refine ⟨⟨level, toFile, dir, key, cap, root, extensions, baseDir, formats⟩,
      ⟨hlevel, htoFile, hdir, hkey, hcap, hroot, hextensions, hbaseDir, hformats⟩, Except.ok.inj hs, ?_⟩
    rw [← Except.ok.inj hs]
    exact ⟨hlog, hlog', hsearch, hsearch', hvault, hvault', hvault'', houtput, houtput', houtput''⟩
  · rintro ⟨w, hw, rfl, hs⟩
    exact ⟨_, ⟨_, _, _, hw.level, hw.toFile, hw.dir, rfl⟩, _, ⟨_, _, hw.defaultKey, hw.maxClauses, rfl⟩,
      _, ⟨_, _, hw.root, hw.extensions, rfl⟩, _, ⟨_, _, hw.baseDir, hw.formats, rfl⟩,
      (), checkLog_eq_ok_iff.mpr ⟨hs.level, hs.dir⟩,
      (), checkSearch_eq_ok_iff.mpr ⟨hs.defaultKey, hs.maxClauses⟩,
      (), checkVault_eq_ok_iff.mpr ⟨hs.root, hs.extensions_ne_nil, hs.extensions⟩,
      (), checkOutput_eq_ok_iff.mpr ⟨hs.formats_ne_nil, hs.formats, hs.baseDir⟩, rfl⟩

end NoteQuery.Settings
