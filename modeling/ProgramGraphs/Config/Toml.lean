import ProgramGraphs.Config.Basic
import ProgramGraphs.Failure
import ProgramGraphs.Toml.Decode
import ProgramGraphs.Toml.Document
import ProgramGraphs.Toml.Settings

/-!
# Configuration files

A configuration file is a TOML document with one section for each group of settings.
Reading one starts from the defaults and replaces the settings that it gives.
-/

namespace ProgramGraphs

open Toml (Decoder Entries RecordField Sections Setting)
open Toml.Decode (choice field list record string)

/-- Reads a format. -/
def Format.ofItem : Decoder Format :=
  choice (Format.all.map fun format => (format.extension, format))

/-- Reads a back edge policy. -/
def BackEdgePolicy.ofItem : Decoder BackEdgePolicy :=
  choice (BackEdgePolicy.all.map fun policy => (policy.name, policy))

/-- Reads a label strategy. -/
def LabelStrategy.ofItem : Decoder LabelStrategy :=
  choice (LabelStrategy.all.map fun strategy => (strategy.name, strategy))

namespace OutputSettings

/-- The keys of the output section. -/
def fields : List (RecordField OutputSettings) :=
  [field "format" Format.ofItem fun value settings => { settings with format := value },
   field "file_stem" string fun value settings => { settings with fileStem := value },
   field "call_graph_prefix" string fun value settings =>
     { settings with callGraphPrefix := value },
   field "sdg_prefix" string fun value settings => { settings with sdgPrefix := value }]

/-- Reads output settings. -/
def ofItem : Decoder OutputSettings := record "struct OutputConfig" fields {}

/-- Output settings as a section. -/
def toSettings (settings : OutputSettings) : List (String × Setting) :=
  [("format", .text settings.format.extension), ("file_stem", .text settings.fileStem),
   ("call_graph_prefix", .text settings.callGraphPrefix),
   ("sdg_prefix", .text settings.sdgPrefix)]

end OutputSettings

namespace CanonicalSettings

/-- The keys of the canonicalization section. -/
def fields : List (RecordField CanonicalSettings) :=
  [field "back_edges" BackEdgePolicy.ofItem fun value settings =>
     { settings with backEdges := value },
   field "edge_labels" LabelStrategy.ofItem fun value settings =>
     { settings with edgeLabels := value }]

/-- Reads canonicalization settings. -/
def ofItem : Decoder CanonicalSettings := record "struct CanonicalizeConfig" fields {}

/-- Canonicalization settings as a section. -/
def toSettings (settings : CanonicalSettings) : List (String × Setting) :=
  [("back_edges", .text settings.backEdges.name), ("edge_labels", .text settings.edgeLabels.name)]

end CanonicalSettings

namespace ScopeSettings

/-- The keys of the scope section. -/
def fields : List (RecordField ScopeSettings) :=
  [field "application_loader" string fun value settings =>
     { settings with applicationLoader := value },
   field "exclude_prefixes" (list string) fun value settings =>
     { settings with excludePrefixes := value }]

/-- Reads scope settings. -/
def ofItem : Decoder ScopeSettings := record "struct ScopeConfig" fields {}

/-- Scope settings as a section. -/
def toSettings (settings : ScopeSettings) : List (String × Setting) :=
  [("application_loader", .text settings.applicationLoader),
   ("exclude_prefixes", .texts settings.excludePrefixes)]

end ScopeSettings

namespace Config

/-- The sections of a configuration file. -/
def fields : List (RecordField Config) :=
  [field "output" OutputSettings.ofItem fun value config => { config with output := value },
   field "canonicalize" CanonicalSettings.ofItem fun value config =>
     { config with canonicalize := value },
   field "scope" ScopeSettings.ofItem fun value config => { config with scope := value }]

/-- The configuration that the entries of a document describe. -/
def ofEntries (entries : Entries) : Except Reading.Mismatch Config :=
  Toml.Decode.ofEntries fields {} entries

/-- The configuration that a text holds. -/
def ofText (text : String) : Except ConfigProblem Config :=
  match Toml.read text with
  | none => .error .malformed
  | some entries =>
    match ofEntries entries with
    | .error reason => .error (.mismatch reason)
    | .ok config => .ok config

/-- A configuration as the sections of a document. -/
def toSections (config : Config) : Sections :=
  [("output", config.output.toSettings), ("canonicalize", config.canonicalize.toSettings),
   ("scope", config.scope.toSettings)]

/-- The text of a configuration file. -/
def toText (config : Config) : String := config.toSections.render

end Config

end ProgramGraphs
