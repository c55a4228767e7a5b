import QueryBuild.BuildUnit
import QueryBuild.Report
import QueryBuild.Json.Decoder
/-!
# Reading reports

The shapes of reports and of their parts as JSON text, and the values that they stand for. Reading
a text yields the value in its normal form first; what its shape promises is there.
-/

namespace QueryBuild

namespace Json

/-- The value of a field of an object; null if there is none. -/
def get (value : Json) (key : String) : Json :=
  match value with
  | obj fields => (fields.lookup key).getD null
  | _ => null

def asText : Json → String
  | str s => s
  | _ => ""

/-- The text of a string, and nothing for null. -/
def asText? : Json → Option String
  | str s => some s
  | _ => none

def asNat : Json → Nat
  | num n => n
  | _ => 0

def asList : Json → List Json
  | arr items => items
  | _ => []

/-- A string of any content. -/
def Decoder.string : Decoder :=
  Decoder.text "a string"

def Decoder.path : Decoder :=
  Decoder.text "path string"

/-- A counter of 64 bits. -/
def Decoder.count : Decoder :=
  Decoder.counter (Nat.pow 2 64 - 1) "usize"

/-- A number of 32 bits. -/
def Decoder.short : Decoder :=
  Decoder.counter (Nat.pow 2 32 - 1) "u32"

end Json

open Json (Decoder Field)

namespace BuildUnit

def toJson (u : BuildUnit) : Json :=
  .obj [("name", .str u.name), ("source_path", .str u.source.text),
    ("artifact_path", .str u.artifact.text)]

def decoder : Decoder :=
  .record "Unit" [⟨"name", .required, .string⟩, ⟨"source_path", .required, .path⟩,
    ⟨"artifact_path", .required, .path⟩]

def ofJson (value : Json) : BuildUnit :=
  ⟨(value.get "name").asText, ⟨(value.get "source_path").asText⟩,
    ⟨(value.get "artifact_path").asText⟩⟩

def ofText (text : String) : Except Json.Failure BuildUnit :=
  (Json.decode decoder text).map ofJson

end BuildUnit

namespace Diagnostic

def locationDecoder : Decoder :=
  .record "Location" [⟨"file", .required, .string⟩]

def decoder : Decoder :=
  .record "Diagnostic" [⟨"code", .required, .choice (Code.all.map Code.text)⟩,
    ⟨"severity", .required, .choice (Severity.all.map Severity.text)⟩,
    ⟨"message", .required, .string⟩, ⟨"unit", .defaulted, .orNull .string⟩,
    ⟨"location", .optional, .orNull locationDecoder⟩, ⟨"detail", .defaulted, .orNull .string⟩,
    ⟨"impact", .required, .list .string⟩]

def ofJson (value : Json) : Diagnostic where
  code := (Code.ofText? (value.get "code").asText).getD default
  severity := (Severity.ofText? (value.get "severity").asText).getD default
  message := (value.get "message").asText
  unit := (value.get "unit").asText?
  location := ((value.get "location").get "file").asText?
  detail := (value.get "detail").asText?
  impact := (value.get "impact").asList.map Json.asText

def ofText (text : String) : Except Json.Failure Diagnostic :=
  (Json.decode decoder text).map ofJson

end Diagnostic

namespace UnitRecord

def decoder : Decoder :=
  .record "UnitRecord" [⟨"name", .required, .string⟩,
    ⟨"action", .required, .choice (UnitAction.all.map UnitAction.key)⟩,
    ⟨"source_sha256", .optional, .orNull .string⟩]

def ofJson (value : Json) : UnitRecord where
  name := (value.get "name").asText
  action := (UnitAction.ofKey? (value.get "action").asText).getD default
  sourceSha256 := (value.get "source_sha256").asText?

def ofText (text : String) : Except Json.Failure UnitRecord :=
  (Json.decode decoder text).map ofJson

end UnitRecord

namespace Summary

def decoder : Decoder :=
  .record "ReportSummary" <|
    ["total", "errors", "warnings", "info", "compiled", "up_to_date", "executed"].map fun name =>
      ⟨name, .required, .count⟩

def ofJson (value : Json) : Summary where
  total := (value.get "total").asNat
  errors := (value.get "errors").asNat
  warnings := (value.get "warnings").asNat
  info := (value.get "info").asNat
  compiled := (value.get "compiled").asNat
  upToDate := (value.get "up_to_date").asNat
  executed := (value.get "executed").asNat

end Summary

namespace Report

def versionDecoder : Decoder :=
  .record "ReportVersion" [⟨"major", .required, .short⟩, ⟨"minor", .required, .short⟩]

def decoder : Decoder :=
  .record "Report" [⟨"version", .required, versionDecoder⟩, ⟨"timestamp", .required, .string⟩,
    ⟨"command", .required, .string⟩, ⟨"directory", .required, .string⟩,
    ⟨"order", .required, .list .string⟩, ⟨"summary", .required, Summary.decoder⟩,
    ⟨"units", .required, .list UnitRecord.decoder⟩,
    ⟨"diagnostics", .required, .list Diagnostic.decoder⟩]

def ofJson (value : Json) : Report where
  version := ⟨((value.get "version").get "major").asNat, ((value.get "version").get "minor").asNat⟩
  timestamp := (value.get "timestamp").asText
  command := (value.get "command").asText
  directory := (value.get "directory").asText
  order := (value.get "order").asList.map Json.asText
  summary := Summary.ofJson (value.get "summary")
  units := (value.get "units").asList.map UnitRecord.ofJson
  diagnostics := (value.get "diagnostics").asList.map Diagnostic.ofJson

def ofText (text : String) : Except Json.Failure Report :=
  (Json.decode decoder text).map ofJson

end Report

end QueryBuild
