import ProgramGraphs.Config.Basic
import ProgramGraphs.Json.Variant

/-!
# Configurations as JSON

Settings that are left out take their defaults.
-/

namespace ProgramGraphs

open Json (Decoder Value)
open Json.Record (Field Fields)
open Json.Variant (Plain)

/-- A format as a JSON value. -/
def Format.toJson (format : Format) : Value := .string format.extension

/-- Reads a format. -/
def Format.decoder : Decoder Format :=
  Json.Variant.plain (Format.all.map fun format => Plain.unit format.extension format)

/-- A back edge policy as a JSON value. -/
def BackEdgePolicy.toJson (policy : BackEdgePolicy) : Value := .string policy.name

/-- Reads a back edge policy. -/
def BackEdgePolicy.decoder : Decoder BackEdgePolicy :=
  Json.Variant.plain (BackEdgePolicy.all.map fun policy => Plain.unit policy.name policy)

/-- A label strategy as a JSON value. -/
def LabelStrategy.toJson (strategy : LabelStrategy) : Value := .string strategy.name

/-- Reads a label strategy. -/
def LabelStrategy.decoder : Decoder LabelStrategy :=
  Json.Variant.plain (LabelStrategy.all.map fun strategy => Plain.unit strategy.name strategy)

namespace OutputSettings

/-- Output settings as a JSON object. -/
def toJson (settings : OutputSettings) : Value :=
  .object [("format", settings.format.toJson), ("file_stem", .string settings.fileStem),
    ("call_graph_prefix", .string settings.callGraphPrefix),
    ("sdg_prefix", .string settings.sdgPrefix)]

/-- Reads output settings. -/
def decoder : Decoder OutputSettings :=
  let defaults : OutputSettings := {}
  Json.Record.decode "struct OutputConfig"
    (.cons (.withDefault "format" Format.decoder defaults.format) <|
      .cons (.withDefault "file_stem" Json.Decode.string defaults.fileStem) <|
      .cons (.withDefault "call_graph_prefix" Json.Decode.string defaults.callGraphPrefix) <|
      .cons (.withDefault "sdg_prefix" Json.Decode.string defaults.sdgPrefix) .nil)
    fun (format, fileStem, callGraphPrefix, sdgPrefix, ()) =>
      { format, fileStem, callGraphPrefix, sdgPrefix }

end OutputSettings

namespace CanonicalSettings

/-- Canonicalization settings as a JSON object. -/
def toJson (settings : CanonicalSettings) : Value :=
  .object [("back_edges", settings.backEdges.toJson), ("edge_labels", settings.edgeLabels.toJson)]

/-- Reads canonicalization settings. -/
def decoder : Decoder CanonicalSettings :=
  let defaults : CanonicalSettings := {}
  Json.Record.decode "struct CanonicalizeConfig"
    (.cons (.withDefault "back_edges" BackEdgePolicy.decoder defaults.backEdges) <|
      .cons (.withDefault "edge_labels" LabelStrategy.decoder defaults.edgeLabels) .nil)
    fun (backEdges, edgeLabels, ()) => { backEdges, edgeLabels }

end CanonicalSettings

namespace ScopeSettings

/-- Scope settings as a JSON object. -/
def toJson (settings : ScopeSettings) : Value :=
  .object [("application_loader", .string settings.applicationLoader),
    ("exclude_prefixes", .list (settings.excludePrefixes.map .string))]

/-- Reads scope settings. -/
def decoder : Decoder ScopeSettings :=
  let defaults : ScopeSettings := {}
  Json.Record.decode "struct ScopeConfig"
    (.cons (.withDefault "application_loader" Json.Decode.string defaults.applicationLoader) <|
      .cons (.withDefault "exclude_prefixes" (Json.Decode.list Json.Decode.string)
        defaults.excludePrefixes) .nil)
    fun (applicationLoader, excludePrefixes, ()) => { applicationLoader, excludePrefixes }

end ScopeSettings

namespace Config

/-- A configuration as a JSON object. -/
def toJson (config : Config) : Value :=
  .object [("output", config.output.toJson), ("canonicalize", config.canonicalize.toJson),
    ("scope", config.scope.toJson)]

/-- Reads a configuration. -/
def decoder : Decoder Config :=
  Json.Record.decode "struct Config"
    (.cons (.withDefault "output" OutputSettings.decoder {}) <|
      .cons (.withDefault "canonicalize" CanonicalSettings.decoder {}) <|
      .cons (.withDefault "scope" ScopeSettings.decoder {}) .nil)
    fun (output, canonicalize, scope, ()) => { output, canonicalize, scope }

end Config

end ProgramGraphs
