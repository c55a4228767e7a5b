import QueryBuild.Settings
import QueryBuild.Toml.Decoder
/-!
# Reading settings

The settings as a TOML document. Whatever is missing keeps its value, and unknown keys are left
out.
-/

namespace QueryBuild

open Toml (Decoder)

namespace ToolchainSettings

def pathList : Decoder (List Path) := fun node =>
  (Decoder.list (Decoder.text "path string") node).map fun paths => paths.map Path.mk

def fields : List (Decoder.Field ToolchainSettings) := [
  ⟨"compiler", fun t node => do return { t with compiler := ← Decoder.text "a string" node }⟩,
  ⟨"standard", fun t node => do return { t with standard := some (← Decoder.text "a string" node) }⟩,
  ⟨"include_dirs", fun t node => do return { t with includeDirs := ← pathList node }⟩,
  ⟨"library_dirs", fun t node => do return { t with libraryDirs := ← pathList node }⟩,
  ⟨"libraries", fun t node => do
    return { t with libraries := ← Decoder.list (Decoder.text "a string") node }⟩,
  ⟨"extra_flags", fun t node => do
    return { t with extraFlags := ← Decoder.list (Decoder.text "a string") node }⟩]

def decoder : Decoder ToolchainSettings :=
  Decoder.record "ToolchainConfig" fields standardSettings

end ToolchainSettings

namespace Settings

def dialectDecoder : Decoder Dialect := fun node =>
  (Decoder.choice (Dialect.all.map Dialect.key) node).map fun name =>
    (Dialect.ofKey? name).getD default

/-- The part of the settings that concerns the SQL texts. -/
def sqlDecoder : Decoder Dialect :=
  Decoder.record "SqlConfig" [⟨"dialect", fun _ node => dialectDecoder node⟩] .duckdb

def fields : List (Decoder.Field Settings) := [
  ⟨"sql", fun s node => do return { s with dialect := ← sqlDecoder node }⟩,
  ⟨"toolchain", fun s node => do return { s with toolchain := ← ToolchainSettings.decoder node }⟩]

/-- Reads settings whose relative directories lie below a root. -/
def ofText (root : Path) (source : String) : Except Toml.Problem Settings := do
  Decoder.record "Config" fields (initial root) (.table (← Toml.parse source))

end Settings

end QueryBuild
