import CodeChunks.Chunk

namespace CodeChunks

inductive Level where
  | debug
  | info
  | warn
  deriving DecidableEq, Repr

def Level.name : Level → String
  | .debug => "DEBUG"
  | .info => "INFO"
  | .warn => "WARN"

inductive Event where
  | loading (grammar : Grammar)
  | unnamed (filePath nodeKind : String) (line : Nat)
  | importWithoutSource (line : Nat)
  | dropped (filePath : String) (type : ChunkType) (name : String) (lines : LineSpan)
  | chunked (filePath : String) (language : Language) (count : Nat)
  | failed (filePath : String) (language : Option Language) (error : String)
  deriving DecidableEq, Repr

namespace Event

def level : Event → Level
  | .dropped .. | .failed .. => .warn
  | _ => .debug

def message : Event → String
  | .loading g => "Loading " ++ g.name ++ " grammar"
  | .unnamed path kind line =>
    "Extraction anomaly in " ++ path ++ ": " ++ kind ++ " at line " ++ toString line ++
      " has no identifiable name"
  | .importWithoutSource line => "Import without a module source at line " ++ toString line
  | .dropped path type name lines =>
    "Dropping " ++ type.name ++ " `" ++ name ++ "` in " ++ path ++ ": lines " ++
      toString lines.start ++ "-" ++ toString lines.stop ++ " lie inside another chunk"
  | .chunked path language count =>
    "Chunked " ++ path ++ " (" ++ language.name ++ "): " ++ toString count ++ " chunks"
  | .failed path language error =>
    "Failed to chunk file=" ++ path ++ " language=" ++ Language.nameOrUnknown language ++
      " error=" ++ error

end Event

end CodeChunks
