import CodeChunks.Event
import CodeChunks.Text.Blank

namespace CodeChunks.Assembly

def byteSpan (c : RawChunk) : Nat × Nat := (c.start, c.stop)

def firstBySpan (seen : List (Nat × Nat)) : List RawChunk → List RawChunk
  | [] => []
  | c :: cs =>
    if byteSpan c ∈ seen then firstBySpan seen cs
    else c :: firstBySpan (byteSpan c :: seen) cs

def candidates (raw : List RawChunk) : List RawChunk :=
  firstBySpan [] (raw.filter fun c => !Text.IsBlank c.content)

def ordered (a b : RawChunk) : Bool :=
  a.lineStart < b.lineStart || (a.lineStart == b.lineStart && b.lineEnd ≤ a.lineEnd)

def covered (widest : Option LineSpan) (s : LineSpan) : Bool :=
  match widest with
  | none => false
  | some w => s.stop < w.stop || (s.stop == w.stop && w.start < s.start)

def widen (widest : Option LineSpan) (s : LineSpan) : Option LineSpan :=
  match widest with
  | none => some s
  | some w => if w.stop < s.stop then some s else some w

/-- Splits chunks in order into those kept and those that lie inside one kept before. -/
def sweep (widest : Option LineSpan) : List RawChunk → List RawChunk × List RawChunk
  | [] => ([], [])
  | c :: cs =>
    if covered widest c.lines then
      let (kept, dropped) := sweep widest cs
      (kept, c :: dropped)
    else
      let (kept, dropped) := sweep (widen widest c.lines) cs
      (c :: kept, dropped)

def swept (raw : List RawChunk) : List RawChunk × List RawChunk :=
  sweep none ((candidates raw).mergeSort ordered)

def chunkId (language : Language) (filePath : String) (c : RawChunk) (seq : Nat) : String :=
  language.name ++ "_" ++ c.type.name ++ "_" ++ c.name ++ "_" ++ Path.baseName filePath ++ "_" ++
    toString seq

def record (language : Language) (filePath : String) (imports : List Import) (c : RawChunk)
    (seq : Nat) : Chunk :=
  { id := chunkId language filePath c seq
    content := c.content
    metadata :=
      { filePath, language, type := c.type, name := c.name, lineStart := c.lineStart,
        lineEnd := c.lineEnd, imports, details := c.details } }

def assemble (raw : List RawChunk) (imports : List Import) (filePath : String)
    (language : Language) : List Chunk :=
  (swept raw).1.zipIdx.map fun (c, seq) => record language filePath imports c seq

def dropEvents (raw : List RawChunk) (filePath : String) : List Event :=
  (swept raw).2.map fun c => .dropped filePath c.type c.name c.lines

end CodeChunks.Assembly
