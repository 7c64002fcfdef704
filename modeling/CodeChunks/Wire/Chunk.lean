import CodeChunks.Chunk
import CodeChunks.Json

namespace CodeChunks

def Language.toJson (l : Language) : Json := .str l.name

def Language.ofJson? : Json → Option Language :=
  Json.choice? fun s => Language.all.find? (·.name == s)

def ChunkType.toJson (t : ChunkType) : Json := .str t.name

def ChunkType.ofJson? : Json → Option ChunkType :=
  Json.choice? fun s => ChunkType.all.find? (·.name == s)

def SpecifierKind.toJson (k : SpecifierKind) : Json := .str k.name

def SpecifierKind.ofJson? : Json → Option SpecifierKind :=
  Json.choice? fun s => SpecifierKind.all.find? (·.name == s)

def Specifier.toJson (s : Specifier) : Json :=
  .obj [("type", s.kind.toJson), ("local", .str s.binding), ("imported", .ofOption .str s.imported)]

def Specifier.ofJson? (j : Json) : Option Specifier := do
  let f ← j.fields? 3
  return {
    kind := ← f.required 0 "type" SpecifierKind.ofJson?
    binding := ← f.required 1 "local" Json.str?
    imported := ← f.optional 2 "imported" Json.str? }

def Import.toJson (i : Import) : Json :=
  .obj [("source", .str i.source), ("specifiers", .ofList Specifier.toJson i.specifiers)]

def Import.ofJson? (j : Json) : Option Import := do
  let f ← j.fields? 2
  return {
    source := ← f.required 0 "source" Json.str?
    specifiers := ← f.required 1 "specifiers" (Json.list? Specifier.ofJson?) }

def Json.present (name : String) : Option Json → List (String × Json)
  | some j => [(name, j)]
  | none => []

def Param.toJson (p : Param) : Json :=
  .obj (("name", .str p.name) :: Json.present "typeAnnotation" (p.annotation.map .str))

def Param.ofJson? (j : Json) : Option Param := do
  let f ← j.fields? 2
  return {
    name := ← f.required 0 "name" Json.str?
    annotation := ← f.withDefault 1 "typeAnnotation" (Json.nullable? Json.str?) none }

def Details.toJson (d : Details) : Json :=
  .obj (("params", .ofList Param.toJson d.params) ::
    Json.present "returnType" (d.returnType.map .str) ++
    [("isAsync", .bool d.isAsync), ("isGenerator", .bool d.isGenerator)] ++
    Json.present "decorators"
      (if d.decorators.isEmpty then none else some (.ofList .str d.decorators)) ++
    Json.present "documentation" (d.documentation.map .str))

def Details.ofJson? (j : Json) : Option Details := do
  let f ← j.fields? 6
  return {
    params := ← f.withDefault 0 "params" (Json.list? Param.ofJson?) []
    returnType := ← f.withDefault 1 "returnType" (Json.nullable? Json.str?) none
    isAsync := ← f.withDefault 2 "isAsync" Json.bool? false
    isGenerator := ← f.withDefault 3 "isGenerator" Json.bool? false
    decorators := ← f.withDefault 4 "decorators" (Json.list? Json.str?) []
    documentation := ← f.withDefault 5 "documentation" (Json.nullable? Json.str?) none }

def Metadata.toJson (m : Metadata) : Json :=
  .obj ([("filePath", .str m.filePath), ("language", m.language.toJson), ("type", m.type.toJson),
    ("name", .str m.name), ("lineStart", .nat m.lineStart), ("lineEnd", .nat m.lineEnd),
    ("imports", .ofList Import.toJson m.imports)] ++
    Json.present "details" (m.details.map Details.toJson))

def Metadata.ofJson? (j : Json) : Option Metadata := do
  let f ← j.fields? 8
  return {
    filePath := ← f.required 0 "filePath" Json.str?
    language := ← f.required 1 "language" Language.ofJson?
    type := ← f.required 2 "type" ChunkType.ofJson?
    name := ← f.required 3 "name" Json.str?
    lineStart := ← f.required 4 "lineStart" Json.nat?
    lineEnd := ← f.required 5 "lineEnd" Json.nat?
    imports := ← f.withDefault 6 "imports" (Json.list? Import.ofJson?) []
    details := ← f.withDefault 7 "details" (Json.nullable? Details.ofJson?) none }

def Chunk.toJson (c : Chunk) : Json :=
  .obj [("id", .str c.id), ("content", .str c.content), ("metadata", c.metadata.toJson)]

def Chunk.ofJson? (j : Json) : Option Chunk := do
  let f ← j.fields? 3
  return {
    id := ← f.required 0 "id" Json.str?
    content := ← f.required 1 "content" Json.str?
    metadata := ← f.required 2 "metadata" Metadata.ofJson? }

def RawChunk.toJson (c : RawChunk) : Json :=
  .obj [("type", c.type.toJson), ("name", .str c.name), ("content", .str c.content),
    ("startByte", .nat c.start), ("endByte", .nat c.stop), ("lineStart", .nat c.lineStart),
    ("lineEnd", .nat c.lineEnd), ("details", .ofOption Details.toJson c.details)]

def RawChunk.ofJson? (j : Json) : Option RawChunk := do
  let f ← j.fields? 8
  return {
    type := ← f.required 0 "type" ChunkType.ofJson?
    name := ← f.required 1 "name" Json.str?
    content := ← f.required 2 "content" Json.str?
    start := ← f.required 3 "startByte" Json.nat?
    stop := ← f.required 4 "endByte" Json.nat?
    lineStart := ← f.required 5 "lineStart" Json.nat?
    lineEnd := ← f.required 6 "lineEnd" Json.nat?
    details := ← f.withDefault 7 "details" (Json.nullable? Details.ofJson?) none }

end CodeChunks
