import CodeChunks.Batch.Processor
import CodeChunks.Wire.Chunk

namespace CodeChunks

def Entries.toJson (item : α → Json) (e : Entries α) : Json :=
  .obj (e.toList.map fun (key, a) => (key, item a))

def Entries.ofJson? (item? : Json → Option α) (j : Json) : Option (Entries α) :=
  (j.entries? item?).map Entries.ofList

def Config.toJson (c : Config) : Json :=
  .obj [("include_imports", .bool c.includeImports), ("include_details", .bool c.includeDetails),
    ("supported_languages", .ofList .str c.supportedLanguages),
    ("extra_extensions", c.extraExtensions.toJson .str)]

def Config.ofJson? (j : Json) : Option Config := do
  let f ← j.fields? 4
  let d : Config := {}
  return {
    includeImports := ← f.withDefault 0 "include_imports" Json.bool? d.includeImports
    includeDetails := ← f.withDefault 1 "include_details" Json.bool? d.includeDetails
    supportedLanguages :=
      ← f.withDefault 2 "supported_languages" (Json.list? Json.str?) d.supportedLanguages
    extraExtensions :=
      ← f.withDefault 3 "extra_extensions" (Entries.ofJson? Json.str?) d.extraExtensions }

namespace Batch

def Settings.toJson (s : Settings) : Json :=
  .obj [("chunker", s.chunker.toJson), ("concurrency", .ofOption .nat s.concurrency),
    ("max_file_bytes", .nat s.maxFileBytes)]

def Settings.ofJson? (j : Json) : Option Settings := do
  let f ← j.fields? 3
  let d : Settings := {}
  return {
    chunker := ← f.withDefault 0 "chunker" Config.ofJson? d.chunker
    concurrency := ← f.withDefault 1 "concurrency" (Json.nullable? Json.nat?) d.concurrency
    maxFileBytes := ← f.withDefault 2 "max_file_bytes" Json.nat? d.maxFileBytes }

def Stats.toJson (s : Stats) : Json :=
  .obj [("files", .nat s.files), ("skipped", .nat s.skipped), ("failed", .nat s.failed),
    ("chunks", .nat s.chunks), ("total_lines", .nat s.totalLines), ("time_ms", .nat s.timeMs),
    ("languages", s.languages.toJson .nat), ("errors", .ofList .str s.errors)]

def Stats.ofJson? (j : Json) : Option Stats := do
  let f ← j.fields? 8
  return {
    files := ← f.required 0 "files" Json.nat?
    skipped := ← f.required 1 "skipped" Json.nat?
    failed := ← f.required 2 "failed" Json.nat?
    chunks := ← f.required 3 "chunks" Json.nat?
    totalLines := ← f.required 4 "total_lines" Json.nat?
    timeMs := ← f.required 5 "time_ms" Json.nat?
    languages := ← f.required 6 "languages" (Entries.ofJson? Json.nat?)
    errors := ← f.required 7 "errors" (Json.list? Json.str?) }

def FileChunks.toJson (c : FileChunks) : Json :=
  .obj [("filePath", .str c.filePath), ("language", .ofOption Language.toJson c.language),
    ("chunks", .ofList Chunk.toJson c.chunks)]

def FileChunks.ofJson? (j : Json) : Option FileChunks := do
  let f ← j.fields? 3
  return {
    filePath := ← f.required 0 "filePath" Json.str?
    language := ← f.optional 1 "language" Language.ofJson?
    chunks := ← f.required 2 "chunks" (Json.list? Chunk.ofJson?) }

def Output.toJson (o : Output) : Json :=
  .obj [("files", .ofList FileChunks.toJson o.files), ("stats", o.stats.toJson)]

def Output.ofJson? (j : Json) : Option Output := do
  let f ← j.fields? 2
  return {
    files := ← f.required 0 "files" (Json.list? FileChunks.ofJson?)
    stats := ← f.required 1 "stats" Stats.ofJson? }

end Batch

end CodeChunks
