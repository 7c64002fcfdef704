import CodeChunks.Batch.Limit
import CodeChunks.Batch.Settings
import CodeChunks.Batch.Stats
import CodeChunks.Chunker
import CodeChunks.Files.Scan

/-!
Batches: many files through one chunker. A file that fails leaves an empty entry and a count, and
has no bearing on the others.
-/

namespace CodeChunks.Batch

open Files

structure FileChunks where
  filePath : String
  language : Option Language
  chunks : List Chunk
  deriving DecidableEq, Repr

structure Output where
  files : List FileChunks
  stats : Stats
  deriving DecidableEq, Repr

def Output.chunks (o : Output) : List Chunk := o.files.flatMap FileChunks.chunks

structure Processor where
  chunker : Chunker
  maxFileBytes : Nat
  limiter : Limiter

inductive Outcome where
  | chunked (entry : FileChunks) (lines : Nat)
  | failed (language : Option Language) (error : BatchError)

namespace Outcome

def entry (path : OsText) : Outcome → FileChunks
  | .chunked entry _ => entry
  | .failed language _ => ⟨path.display, language, []⟩

def addTo (path : OsText) (s : Stats) : Outcome → Stats
  | .chunked entry lines =>
    (s.addFile (Language.nameOrUnknown entry.language) lines).addChunks entry.chunks.length
  | .failed _ error =>
    if error.isSkip then s.addSkipped else s.addError (path.display ++ ": " ++ error.message)

def event? (path : OsText) : Outcome → Option Event
  | .chunked .. => none
  | .failed language error =>
    if error.isSkip then none else some (.failed path.display language error.message)

end Outcome

namespace Processor

def new (settings : Settings) (setting : Option String) (processors : Nat) :
    Except BatchError Processor := do
  settings.validate
  let chunker ← (Chunker.new settings.chunker).mapError BatchError.chunker
  return {
    chunker
    maxFileBytes := settings.maxFileBytes
    limiter := .new (concurrency settings.concurrency setting processors) }

def readSource (p : Processor) (files : FileSystem) (path : OsText) : Except BatchError String := do
  let size ← (files.sizeOf path).mapError BatchError.io
  if p.maxFileBytes < size then .error (.fileTooLarge path.display size p.maxFileBytes)
  else (files.readText path).mapError BatchError.io

def run (p : Processor) (files : FileSystem) (lib : ParserLibrary) (path : OsText) : Outcome :=
  match p.chunker.resolve path with
  | .error e => .failed none (.chunker e)
  | .ok policy =>
    match p.readSource files path with
    | .error e => .failed (some policy.language) e
    | .ok source =>
      match p.chunker.chunkText lib policy path.display source with
      | .error e => .failed (some policy.language) (.chunker e)
      | .ok chunks =>
        .chunked ⟨path.display, some policy.language, chunks⟩ (Text.lineCount source)

def processFile (p : Processor) (files : FileSystem) (lib : ParserLibrary) (path : OsText) :
    Except BatchError FileChunks :=
  match p.run files lib path with
  | .chunked entry _ => .ok entry
  | .failed _ e => .error e

def processBatch (p : Processor) (files : FileSystem) (lib : ParserLibrary)
    (paths : List OsText) : Output :=
  let outcomes := paths.map fun path => (path, p.run files lib path)
  { files := outcomes.map fun (path, o) => o.entry path
    stats := outcomes.foldl (fun s (path, o) => o.addTo path s) {} }

def batchEvents (p : Processor) (files : FileSystem) (lib : ParserLibrary)
    (paths : List OsText) : List Event :=
  paths.filterMap fun path => (p.run files lib path).event? path

def scanDirectory (p : Processor) (files : FileSystem) (root : OsText) :
    Except BatchError (List OsText) :=
  if files.isDirectory root then
    .ok (scan files p.chunker.registry { maxFileBytes := p.maxFileBytes } root)
  else .error (.invalidPath ("Not a directory: " ++ root.display))

def processDirectory (p : Processor) (files : FileSystem) (lib : ParserLibrary) (root : OsText) :
    Except BatchError Output :=
  (p.scanDirectory files root).map (p.processBatch files lib)

end Processor

def chunkFile (c : Chunker) (files : FileSystem) (lib : ParserLibrary) (path : OsText) :
    Except ChunkError (List Chunk) := do
  let policy ← c.resolve path
  let source ← (files.readText path).mapError ChunkError.io
  c.chunkText lib policy path.display source

end CodeChunks.Batch
