import CodeChunks.Batch.Processor
import CodeChunks.Text.Padding

namespace CodeChunks.Batch

def FileChunks.summary (c : FileChunks) : String :=
  Text.padLeft 4 (toString c.chunks.length) ++ " chunks  " ++
    Text.padRight 10 ((c.language.map Language.name).getD "-") ++ "  " ++ c.filePath

namespace Stats

def totals (s : Stats) : String :=
  toString s.files ++ " files chunked, " ++ toString s.skipped ++ " skipped, " ++
    toString s.failed ++ " failed: " ++ toString s.chunks ++ " chunks from " ++
    toString s.totalLines ++ " lines in " ++ toString s.timeMs ++ "ms"

def languageLine? (s : Stats) : Option String :=
  if s.languages.isEmpty then none
  else
    some ("languages: " ++ " ".intercalate
      (s.languages.toList.map fun (name, count) => name ++ "=" ++ toString count))

def summaryLines (s : Stats) : List String :=
  ["", s.totals] ++ s.languageLine?.toList ++ s.errors.map ("error: " ++ ·)

end Stats

def Output.summaryLines (o : Output) : List String :=
  o.files.map FileChunks.summary ++ o.stats.summaryLines

def Output.summary (o : Output) : String :=
  String.join (o.summaryLines.map (· ++ "\n"))

end CodeChunks.Batch
