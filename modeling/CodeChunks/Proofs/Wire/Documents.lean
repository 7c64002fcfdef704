import CodeChunks.Proofs.Json.Text
import CodeChunks.Proofs.Wire.RoundTrip

/-!
Records as JSON texts. Main statement: chunks, results of batches, configurations and settings are
read back from what they are written as.
-/

namespace CodeChunks

namespace Json

variable {α : Type} {toJson : α → Json}

attribute [simp] Whole.null Whole.bool Whole.nat Whole.str

theorem whole_ofList (h : ∀ a, (toJson a).Whole) (as : List α) : (ofList toJson as).Whole := by
  apply Whole.arr
  intro j hj
  obtain ⟨a, -, rfl⟩ := List.mem_map.1 hj
  exact h a

@[simp] theorem whole_strings (ss : List String) : (ofList .str ss).Whole :=
  whole_ofList Whole.str ss

theorem whole_ofOption (h : ∀ a, (toJson a).Whole) (o : Option α) :
    (ofOption toJson o).Whole := by
  cases o with
  | none => exact .null
  | some a => exact h a

theorem whole_present (h : ∀ a, (toJson a).Whole) {name : String} {o : Option α} :
    ∀ m ∈ present name (o.map toJson), m.2.Whole := by
  cases o with
  | none => simp [present]
  | some a => simp [present, h a]

theorem whole_entries (h : ∀ a, (toJson a).Whole) (e : Entries α) : (e.toJson toJson).Whole := by
  apply Whole.obj
  intro m hm
  obtain ⟨x, -, rfl⟩ := List.mem_map.1 hm
  exact h x.2

end Json

open Json

@[simp] theorem Language.whole_toJson (l : Language) : l.toJson.Whole := .str l.name

theorem Specifier.whole_toJson (s : Specifier) : s.toJson.Whole :=
  .obj (by simp [SpecifierKind.toJson, whole_ofOption Whole.str])

theorem Import.whole_toJson (i : Import) : i.toJson.Whole :=
  .obj (by simp [whole_ofList Specifier.whole_toJson])

theorem Param.whole_toJson (p : Param) : p.toJson.Whole :=
  .obj (List.forall_mem_cons.2 ⟨.str p.name, whole_present Whole.str⟩)

theorem Details.whole_toJson (d : Details) : d.toJson.Whole := by
  have hdecorators : ∀ m ∈ present "decorators"
      (if d.decorators.isEmpty then none else some (.ofList .str d.decorators)), m.2.Whole := by
    split <;> simp [present]
  apply Whole.obj
  simp only [List.cons_append, List.append_assoc, List.forall_mem_cons, List.forall_mem_append]
  exact ⟨whole_ofList Param.whole_toJson _, whole_present Whole.str, .bool _, .bool _,
    by simp, hdecorators, whole_present Whole.str⟩

theorem Metadata.whole_toJson (m : Metadata) : m.toJson.Whole := by
  apply Whole.obj
  rw [List.forall_mem_append]
  exact ⟨by simp [ChunkType.toJson, whole_ofList Import.whole_toJson],
    whole_present Details.whole_toJson⟩

theorem Chunk.whole_toJson (c : Chunk) : c.toJson.Whole :=
  .obj (by simp [c.metadata.whole_toJson])

theorem Config.whole_toJson (c : Config) : c.toJson.Whole :=
  .obj (by simp [whole_entries Whole.str])

namespace Batch

theorem Settings.whole_toJson (s : Settings) : s.toJson.Whole :=
  .obj (by simp [s.chunker.whole_toJson, whole_ofOption Whole.nat])

theorem Stats.whole_toJson (s : Stats) : s.toJson.Whole :=
  .obj (by simp [whole_entries Whole.nat])

theorem FileChunks.whole_toJson (f : FileChunks) : f.toJson.Whole :=
  .obj (by simp [whole_ofOption Language.whole_toJson, whole_ofList Chunk.whole_toJson])

theorem Output.whole_toJson (o : Output) : o.toJson.Whole :=
  .obj (by simp [o.stats.whole_toJson, whole_ofList FileChunks.whole_toJson])

end Batch

/-- The record is read back from its JSON value, and from either text of that value. -/
structure Recovered {α : Type} (toJson : α → Json) (ofJson? : Json → Option α) (a : α) : Prop where
  value : ofJson? (toJson a) = some a
  compact : (parse? (toJson a).compact).bind ofJson? = some a
  pretty : (parse? (toJson a).pretty).bind ofJson? = some a

theorem Recovered.of_whole {α : Type} {toJson : α → Json} {ofJson? : Json → Option α} {a : α}
    (hvalue : ofJson? (toJson a) = some a) (hwhole : (toJson a).Whole) :
    Recovered toJson ofJson? a where
  value := hvalue
  compact := by rw [parse?_compact hwhole, Option.bind_some, hvalue]
  pretty := by rw [parse?_pretty hwhole, Option.bind_some, hvalue]

theorem documents_recovered :
    (∀ c : Chunk, c.Fits → Recovered Chunk.toJson Chunk.ofJson? c) ∧
    (∀ o : Batch.Output, o.Fits → Recovered Batch.Output.toJson Batch.Output.ofJson? o) ∧
    (∀ c : Config, Recovered Config.toJson Config.ofJson? c) ∧
    (∀ s : Batch.Settings, s.Fits → Recovered Batch.Settings.toJson Batch.Settings.ofJson? s) := by
  refine ⟨?_, ?_, ?_, ?_⟩
  · intro c hc
    exact .of_whole (Chunk.ofJson?_toJson hc) c.whole_toJson
  · intro o ho
    exact .of_whole (Batch.Output.ofJson?_toJson ho) o.whole_toJson
  · intro c
    exact .of_whole c.ofJson?_toJson c.whole_toJson
  · intro s hs
    exact .of_whole (Batch.Settings.ofJson?_toJson hs) s.whole_toJson

namespace Blank

def chunk : Chunk where
  id := ""
  content := "\n"
  metadata :=
    { filePath := "a.ts"
      language := .typescript
      type := .function
      name := ""
      lineStart := 0
      lineEnd := Text.wordLimit - 1
      imports :=
        [{ source := "", specifiers := [{ kind := .named, binding := "", imported := some "" }] }]
      details := some { returnType := some "" } }

def output : Batch.Output where
  files := [{ filePath := "a.ts", language := none, chunks := [chunk] }]
  stats := { files := 1, totalLines := 1, languages := .ofList [("unknown", 1)], errors := [""] }

def settings : Batch.Settings where
  concurrency := some 0
  maxFileBytes := Text.wordLimit - 1

end Blank

theorem documents_recovered_blank :
    Recovered Chunk.toJson Chunk.ofJson? Blank.chunk ∧
    Recovered Batch.Output.toJson Batch.Output.ofJson? Blank.output ∧
    Recovered Config.toJson Config.ofJson? {} ∧
    Recovered Batch.Settings.toJson Batch.Settings.ofJson? Blank.settings := by
  have hchunk : Blank.chunk.Fits := ⟨by decide, by decide⟩
  have houtput : Blank.output.Fits := by
    refine ⟨?_, ?_⟩
    · simpa [Blank.output, Batch.FileChunks.Fits] using hchunk
    · constructor <;> decide
  have hsettings : Blank.settings.Fits := by constructor <;> decide
  obtain ⟨hchunks, houtputs, hconfigs, hallSettings⟩ := documents_recovered
  exact ⟨hchunks _ hchunk, houtputs _ houtput, hconfigs _, hallSettings _ hsettings⟩

end CodeChunks
