import CodeChunks.Assembly
import CodeChunks.Config
import CodeChunks.Extraction.Traversal

/-!
A chunker takes one text to its chunks: resolve the path, parse, extract, assemble.
-/

namespace CodeChunks

structure Chunker where
  config : Config
  registry : Registry

namespace Chunker

def new (config : Config) : Except ChunkError Chunker :=
  config.validate.map fun _ => ⟨config, config.registry⟩

def withRegistry (config : Config) (registry : Registry) : Except ChunkError Chunker :=
  config.validate.map fun _ => ⟨config, registry⟩

def resolve (c : Chunker) (path : OsText) : Except ChunkError Policy :=
  match c.registry.resolve? path with
  | none =>
    let ext := (Path.extension? path).bind OsText.text?
    .error (.unsupportedLanguage ("." ++ ext.getD "<none>"))
  | some policy =>
    if c.config.allows policy.language then .ok policy
    else .error (.unsupportedLanguage policy.language.name)

def extractFrom (config : Config) (policy : Policy) (filePath source : String)
    (root : Syntax.Node) : Extraction.Findings :=
  let e := Extraction.extract policy.language config.includeDetails source filePath root
  if config.includeImports then e else { e with imports := [] }

def chunksOf (config : Config) (policy : Policy) (filePath source : String)
    (root : Syntax.Node) : List Chunk :=
  let e := extractFrom config policy filePath source root
  Assembly.assemble e.raw e.imports filePath policy.language

def chunkText (c : Chunker) (lib : ParserLibrary) (policy : Policy) (filePath source : String) :
    Except ChunkError (List Chunk) :=
  (lib.parse policy source).map (chunksOf c.config policy filePath source)

def chunk (c : Chunker) (lib : ParserLibrary) (filePath source : String) :
    Except ChunkError (List Chunk) := do
  c.chunkText lib (← c.resolve filePath) filePath source

def treeEvents (config : Config) (policy : Policy) (filePath source : String)
    (root : Syntax.Node) : List Event :=
  let e := extractFrom config policy filePath source root
  e.events ++ Assembly.dropEvents e.raw filePath ++
    [.chunked filePath policy.language (chunksOf config policy filePath source root).length]

def chunkReported (c : Chunker) (lib : ParserLibrary) (m : Memory) (policy : Policy)
    (filePath source : String) :
    Chunker × Memory × Except ChunkError (List Chunk) × List Event :=
  let (registry, m, tree, events) := c.registry.parse lib m policy source
  let c : Chunker := { c with registry }
  match tree with
  | .error e => (c, m, .error e, events)
  | .ok root =>
    (c, m, .ok (chunksOf c.config policy filePath source root),
      events ++ treeEvents c.config policy filePath source root)

end Chunker

end CodeChunks
