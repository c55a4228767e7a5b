import QueryBuild.Host.Process
import QueryBuild.ReportText
/-!
# Snapshots

The files of a computer described as JSON text: the working directory, the time, and a list of
files, directories and links with their paths. What every computer has need not be described.
-/

namespace QueryBuild.Host

structure Snapshot where
  timestamp : String
  files : FileSystem

namespace Snapshot

open Json (Decoder)

def kinds : List String :=
  ["file", "program", "directory", "link"]

/-- The shape of an entry: its path, its kind, the contents of a file or the target of a link, and
its time in seconds. -/
def entryDecoder : Decoder :=
  .record "Entry" [⟨"path", .required, .string⟩, ⟨"kind", .required, .choice kinds⟩,
    ⟨"text", .defaulted, .string⟩, ⟨"modified", .defaulted, .count⟩]

def decoder : Decoder :=
  .record "Snapshot" [⟨"directory", .required, .string⟩, ⟨"timestamp", .required, .string⟩,
    ⟨"now", .required, .count⟩, ⟨"entries", .required, .list entryDecoder⟩]

def second : Int := 1000000000

/-- The location with a path that holds neither links nor dots. -/
def locationOf (path : String) : Location :=
  ((Text.splitOn (· == '/') path.toList).filter (· != [])).map fun name =>
    FileName.ofText (String.ofList name)

def entryOf (value : Json) : Location × Entry :=
  let text := (value.get "text").asText
  let time := (value.get "modified").asNat * second
  let entry : Entry := match (value.get "kind").asText with
    | "directory" => .directory time
    | "link" => .link text
    | "program" => .file text.toUTF8 time true
    | _ => .file text.toUTF8 time false
  (locationOf (value.get "path").asText, entry)

/-- Puts an entry and the directories that lead to it into the files. -/
def addEntry (fs : FileSystem) (described : Location × Entry) : FileSystem :=
  (fs.makeDirectories described.1.dropLast).put described.1 described.2

def ofJson (value : Json) : Snapshot :=
  let now := (value.get "now").asNat * second
  let directory := locationOf (value.get "directory").asText
  let bare : FileSystem :=
    { entries := standardEntries now, workingDirectory := directory, now := now }
  ⟨(value.get "timestamp").asText,
    ((value.get "entries").asList.map entryOf).foldl addEntry (bare.makeDirectories directory)⟩

def ofText (text : String) : Except Json.Failure Snapshot :=
  (Json.decode decoder text).map ofJson

end Snapshot

end QueryBuild.Host
