import ProgramGraphs.Config.File
import ProgramGraphs.Proofs.Export.Outcome
import ProgramGraphs.Proofs.Files.Disk
import ProgramGraphs.Proofs.Toml.Document

/-!
# Configuration files keep their settings

A configuration file that was written is read as the configuration it was written from.
Settings and sections may be taken out of it again, in any combination.  Every one of
them is missed on its own: what is read then has the default in its place, and all other
settings as they were (`load_remaining`).

A record takes the entries of its table one after the other, so an entry that is taken
out leaves the record as it was when the entry would have come
(`ofEntries_filter_cons`).  No two entries go into the same field, and that is the
default of the field.
-/

namespace ProgramGraphs

open Toml (Decoder Entries Item Kept RecordField Sections Setting entriesOf headed)

/-! ## What is left of a configuration -/

/-- Output settings where only some keys are given. -/
def OutputSettings.keeping (settings : OutputSettings) (stays : String → Bool) :
    OutputSettings where
  format := if stays "format" then settings.format else ({} : OutputSettings).format
  fileStem := if stays "file_stem" then settings.fileStem else ({} : OutputSettings).fileStem
  callGraphPrefix :=
    if stays "call_graph_prefix" then settings.callGraphPrefix
    else ({} : OutputSettings).callGraphPrefix
  sdgPrefix := if stays "sdg_prefix" then settings.sdgPrefix else ({} : OutputSettings).sdgPrefix

/-- Canonicalization settings where only some keys are given. -/
def CanonicalSettings.keeping (settings : CanonicalSettings) (stays : String → Bool) :
    CanonicalSettings where
  backEdges :=
    if stays "back_edges" then settings.backEdges else ({} : CanonicalSettings).backEdges
  edgeLabels :=
    if stays "edge_labels" then settings.edgeLabels else ({} : CanonicalSettings).edgeLabels

/-- Scope settings where only some keys are given. -/
def ScopeSettings.keeping (settings : ScopeSettings) (stays : String → Bool) :
    ScopeSettings where
  applicationLoader :=
    if stays "application_loader" then settings.applicationLoader
    else ({} : ScopeSettings).applicationLoader
  excludePrefixes :=
    if stays "exclude_prefixes" then settings.excludePrefixes
    else ({} : ScopeSettings).excludePrefixes

/-- A configuration where only some sections and some of their keys are given. -/
def Config.keeping (config : Config) (kept : Kept) : Config where
  output := if kept.part "output" then config.output.keeping (kept.key "output") else {}
  canonicalize :=
    if kept.part "canonicalize" then config.canonicalize.keeping (kept.key "canonicalize") else {}
  scope := if kept.part "scope" then config.scope.keeping (kept.key "scope") else {}

/-! ## Decoding what is left -/

namespace Toml.Decode

/-- **An entry sets its field**, and changes nothing when it is taken out. -/
theorem ofEntries_filter_cons {ρ α : Type} {fields : List (RecordField ρ)} {name : String}
    {decode : Decoder α} {set : α → ρ → ρ} {item : Item} {value : α}
    (hfield : fields.find? (·.name == name) = some (field name decode set))
    (hitem : decode item = .ok value) (stays : String → Bool) (record : ρ) (entries : Entries) :
    ofEntries fields record (((name, item) :: entries).filter (stays ·.1)) =
      ofEntries fields (if stays name then set value record else record)
        (entries.filter (stays ·.1)) := by
  have hentry : takeEntry fields record (name, item) = .ok (set value record) := by
    simp only [takeEntry, hfield, field, hitem]
    rfl
  cases hstays : stays name with
  | false =>
      rw [List.filter_cons_of_neg (by simpa using hstays)]
      rfl
  | true =>
      rw [List.filter_cons_of_pos (by exact hstays), ofEntries, List.foldlM_cons, hentry]
      rfl

theorem string_string (text : String) : string (.string text) = .ok text := rfl

theorem list_string (values : List String) :
    list string (.list (values.map .string)) = .ok values := by
  have hvalues := List.mapM_pure (m := Except Reading.Mismatch) (l := values) (f := id)
  rw [List.map_id] at hvalues
  rw [list, List.mapM_map]
  exact hvalues

end Toml.Decode

open Toml.Decode (list_string ofEntries ofEntries_filter_cons string_string)

theorem Format.ofItem_extension (format : Format) :
    Format.ofItem (.string format.extension) = .ok format := by
  cases format <;> rfl

theorem BackEdgePolicy.ofItem_name (policy : BackEdgePolicy) :
    BackEdgePolicy.ofItem (.string policy.name) = .ok policy := by
  cases policy <;> rfl

theorem LabelStrategy.ofItem_name (strategy : LabelStrategy) :
    LabelStrategy.ofItem (.string strategy.name) = .ok strategy := by
  cases strategy <;> rfl

theorem OutputSettings.ofEntries_filter (settings : OutputSettings) (stays : String → Bool) :
    ofEntries fields {} ((entriesOf settings.toSettings).filter (stays ·.1)) =
      .ok (settings.keeping stays) := by
  refine (ofEntries_filter_cons rfl (Format.ofItem_extension _) stays _ _).trans ?_
  refine (ofEntries_filter_cons rfl (string_string _) stays _ _).trans ?_
  refine (ofEntries_filter_cons rfl (string_string _) stays _ _).trans ?_
  refine (ofEntries_filter_cons rfl (string_string _) stays _ _).trans ?_
  unfold keeping
  cases stays "format" <;> cases stays "file_stem" <;> cases stays "call_graph_prefix" <;>
    cases stays "sdg_prefix" <;> rfl

theorem CanonicalSettings.ofEntries_filter (settings : CanonicalSettings)
    (stays : String → Bool) :
    ofEntries fields {} ((entriesOf settings.toSettings).filter (stays ·.1)) =
      .ok (settings.keeping stays) := by
  refine (ofEntries_filter_cons rfl (BackEdgePolicy.ofItem_name _) stays _ _).trans ?_
  refine (ofEntries_filter_cons rfl (LabelStrategy.ofItem_name _) stays _ _).trans ?_
  unfold keeping
  cases stays "back_edges" <;> cases stays "edge_labels" <;> rfl

theorem ScopeSettings.ofEntries_filter (settings : ScopeSettings) (stays : String → Bool) :
    ofEntries fields {} ((entriesOf settings.toSettings).filter (stays ·.1)) =
      .ok (settings.keeping stays) := by
  refine (ofEntries_filter_cons rfl (string_string _) stays _ _).trans ?_
  refine (ofEntries_filter_cons rfl (list_string _) stays _ _).trans ?_
  unfold keeping
  cases stays "application_loader" <;> cases stays "exclude_prefixes" <;> rfl

namespace Config

/-- **What is left of a configuration is decoded**: every section and every setting that is
gone is missed on its own. -/
theorem ofEntries_keeping (config : Config) (kept : Kept) :
    Config.ofEntries (config.toSections.keeping kept).toEntries = .ok (config.keeping kept) := by
  have houtput : OutputSettings.ofItem
      (headed (kept.settings ("output", config.output.toSettings))) =
        .ok (config.output.keeping (kept.key "output")) := by
    rw [headed, Sections.entriesOf_settings]
    exact config.output.ofEntries_filter _
  have hcanonicalize : CanonicalSettings.ofItem
      (headed (kept.settings ("canonicalize", config.canonicalize.toSettings))) =
        .ok (config.canonicalize.keeping (kept.key "canonicalize")) := by
    rw [headed, Sections.entriesOf_settings]
    exact config.canonicalize.ofEntries_filter _
  have hscope : ScopeSettings.ofItem (headed (kept.settings ("scope", config.scope.toSettings))) =
      .ok (config.scope.keeping (kept.key "scope")) := by
    rw [headed, Sections.entriesOf_settings]
    exact config.scope.ofEntries_filter _
  rw [Sections.toEntries_keeping]
  refine (ofEntries_filter_cons rfl houtput kept.part _ _).trans ?_
  refine (ofEntries_filter_cons rfl hcanonicalize kept.part _ _).trans ?_
  refine (ofEntries_filter_cons rfl hscope kept.part _ _).trans ?_
  unfold keeping
  cases kept.part "output" <;> cases kept.part "canonicalize" <;> cases kept.part "scope" <;> rfl

/-! ## Documents -/

/-- The sections of a configuration and their keys are written without quotes, and each is
given once. -/
theorem plain_toSections (config : Config) : config.toSections.Plain := by
  have hkeys : ∀ part ∈ config.toSections, (∀ key ∈ part.2.map Prod.fst, Toml.Bare key.toList) ∧
      (part.2.map Prod.fst).Nodup := by
    intro part hpart
    simp only [toSections, List.mem_cons, List.not_mem_nil, or_false] at hpart
    rcases hpart with rfl | rfl | rfl
    · change (∀ key ∈ ["format", "file_stem", "call_graph_prefix", "sdg_prefix"], _) ∧
        ["format", "file_stem", "call_graph_prefix", "sdg_prefix"].Nodup
      decide
    · change (∀ key ∈ ["back_edges", "edge_labels"], _) ∧ ["back_edges", "edge_labels"].Nodup
      decide
    · change (∀ key ∈ ["application_loader", "exclude_prefixes"], _) ∧
        ["application_loader", "exclude_prefixes"].Nodup
      decide
  have hnames : (∀ name ∈ config.toSections.map Prod.fst, Toml.Bare name.toList) ∧
      (config.toSections.map Prod.fst).Nodup := by
    change (∀ name ∈ ["output", "canonicalize", "scope"], _) ∧
      ["output", "canonicalize", "scope"].Nodup
    decide
  exact
    { names := fun part hpart => hnames.1 part.1 (List.mem_map_of_mem hpart)
      keys := fun part hpart setting hsetting =>
        (hkeys part hpart).1 setting.1 (List.mem_map_of_mem hsetting)
      namesOnce := hnames.2
      keysOnce := fun part hpart => (hkeys part hpart).2 }

theorem ofText_remaining (config : Config) (kept : Kept) :
    ofText (config.toSections.remaining kept) = .ok (config.keeping kept) := by
  simp only [ofText, Sections.read_remaining config.plain_toSections kept, ofEntries_keeping]

theorem keeping_all (config : Config) : config.keeping .all = config := rfl

/-! ## Files -/

variable {disk later : Disk} {path : String}

theorem outcome_save (config : Config) (path : String) (disk : Disk) :
    outcome (save config path) disk =
      match disk.write path config.toText with
      | .ok later => (.ok (), later)
      | .error error => (.error (.files error), disk) := by
  rw [save, outcome_lift_bind, Disk.run_write]
  cases disk.write path config.toText <;> rfl

/-- A text file is read as its text says. -/
theorem outcome_load_file {text : String} {config : Config}
    (found : disk.find path = .ok (.file text.toUTF8)) (hread : ofText text = .ok config) :
    outcome (load path) disk = (.ok config, disk) := by
  have hbytes : String.fromUTF8? text.toUTF8 = some text := dif_pos text.isValidUTF8
  have hopen : (Files.openPath path : StateM Disk _).run disk =
      pure (.ok (.file text.toUTF8), disk) := congrArg (·, disk) found
  have htext : (Files.readText path : StateM Disk _).run disk = (.ok text, disk) := by
    simp only [Files.readText, Files.readBytes, StateT.run_bind, hopen, pure_bind, Files.content,
      StateT.run_pure, hbytes]
    rfl
  rw [load, outcome_lift_bind, htext]
  simp only [hread, outcome_pure]

/-- **A configuration file keeps its settings one by one.** -/
theorem load_remaining (writable : disk.Writable path) (config : Config) :
    ∃ saved, outcome (save config path) disk = (.ok (), saved) ∧
      saved.find path = .ok (.file (config.toSections.remaining .all).toUTF8) ∧
      outcome (load path) saved = (.ok config, saved) ∧
      ∀ kept, ∃ edited,
        (Files.write path (config.toSections.remaining kept) : StateM Disk _).run saved =
          (.ok (), edited) ∧
        outcome (load path) edited = (.ok (config.keeping kept), edited) := by
  obtain ⟨saved, hsaved⟩ := writable.exists_write config.toText
  have hfound : saved.find path = .ok (.file (config.toSections.remaining .all).toUTF8) := by
    rw [Sections.remaining_all]
    exact Disk.find_write hsaved
  have hwhole : ofText (config.toSections.remaining .all) = .ok config := by
    rw [ofText_remaining, keeping_all]
  have hload := outcome_load_file hfound hwhole
  refine ⟨saved, ?_, hfound, hload, fun kept => ?_⟩
  · rw [outcome_save, hsaved]
  · obtain ⟨edited, hedited⟩ :=
      (writable.of_write hsaved).exists_write (config.toSections.remaining kept)
    refine ⟨edited, ?_, outcome_load_file (Disk.find_write hedited) (config.ofText_remaining kept)⟩
    rw [Disk.run_write, hedited]

/-- A configuration whose texts hold quotes, backslashes, line ends and control characters. -/
def thorny : Config where
  output := { format := .dot, fileStem := "\"'\\\n\x01", sdgPrefix := "''' \x7f" }
  canonicalize := { backEdges := .sameMethod }
  scope := { applicationLoader := "", excludePrefixes := ["com.example.", "\"\"\"\t\r\n", "é"] }

/-- A section and a key are taken out; everything else is kept. -/
theorem load_remaining_thorny :
    Disk.Writable {} "graphs.toml" ∧
      ∃ saved edited : Disk, outcome (save thorny "graphs.toml") {} = (.ok (), saved) ∧
        outcome (load "graphs.toml") saved = (.ok thorny, saved) ∧
        outcome (load "graphs.toml") edited =
          (.ok { thorny with
            output := { thorny.output with fileStem := "graph" }
            canonicalize := {} }, edited) := by
  have hwritable : Disk.Writable {} "graphs.toml" :=
    ⟨["graphs.toml".toList], by decide, by decide, by decide⟩
  obtain ⟨saved, hsaved, -, hload, hedited⟩ := load_remaining hwritable thorny
  obtain ⟨edited, -, hremaining⟩ := hedited
    { part := (· != "canonicalize"), key := fun _ key => key != "file_stem", gap := fun _ => true }
  exact ⟨hwritable, saved, edited, hsaved, hload, hremaining⟩

end Config

end ProgramGraphs
