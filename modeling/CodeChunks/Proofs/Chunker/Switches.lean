import CodeChunks.Proofs.Chunker.DocumentOrder
import CodeChunks.Proofs.Extraction.ImportStatements

namespace CodeChunks

/-- The chunk without its details, unless they are asked for. -/
def RawChunk.restrict (details : Bool) (c : RawChunk) : RawChunk :=
  { c with details := if details then c.details else none }

def Chunk.restrict (imports details : Bool) (c : Chunk) : Chunk :=
  { c with
    metadata :=
      { c.metadata with
        imports := if imports then c.metadata.imports else []
        details := if details then c.metadata.details else none } }

/-- Two chunks that differ in imports and details at most. -/
structure Chunk.SameCore (a b : Chunk) : Prop where
  id : a.id = b.id
  content : a.content = b.content
  filePath : a.metadata.filePath = b.metadata.filePath
  language : a.metadata.language = b.metadata.language
  type : a.metadata.type = b.metadata.type
  name : a.metadata.name = b.metadata.name
  lineStart : a.metadata.lineStart = b.metadata.lineStart
  lineEnd : a.metadata.lineEnd = b.metadata.lineEnd

theorem Chunk.sameCore_restrict (i j d e : Bool) (c : Chunk) :
    (c.restrict i d).SameCore (c.restrict j e) :=
  ⟨rfl, rfl, rfl, rfl, rfl, rfl, rfl, rfl⟩

namespace Extraction

open Syntax

theorem rawChunk_eq_restrict (l : Language) (details : Bool) (source : String) (site : Site) :
    rawChunk l details source site = (rawChunk l true source site).restrict details := by
  cases details <;> rfl

theorem extract_raw_eq_map (l : Language) (details : Bool) (source filePath : String)
    (root : Node) :
    (extract l details source filePath root).raw =
      (extract l true source filePath root).raw.map (RawChunk.restrict details) := by
  simp only [extract, List.map_map]
  apply List.map_congr_left
  intro r _
  exact rawChunk_eq_restrict l details source r.1

end Extraction

namespace Assembly

variable (details : Bool)

theorem firstBySpan_map (seen : List (Nat × Nat)) (cs : List RawChunk) :
    firstBySpan seen (cs.map (RawChunk.restrict details)) =
      (firstBySpan seen cs).map (RawChunk.restrict details) := by
  induction cs generalizing seen with
  | nil => rfl
  | cons c cs ih =>
    have hspan : byteSpan (c.restrict details) = byteSpan c := rfl
    simp only [List.map_cons, firstBySpan, hspan, ih]
    split <;> rfl

theorem candidates_map (raw : List RawChunk) :
    candidates (raw.map (RawChunk.restrict details)) =
      (candidates raw).map (RawChunk.restrict details) := by
  have hcontent (c : RawChunk) : (c.restrict details).content = c.content := rfl
  simp only [candidates, List.filter_map, Function.comp_def, hcontent, firstBySpan_map]

theorem mergeSort_map (cs : List RawChunk) :
    (cs.map (RawChunk.restrict details)).mergeSort ordered =
      (cs.mergeSort ordered).map (RawChunk.restrict details) := by
  symm
  apply List.map_mergeSort
  intro a _ b _
  rfl

theorem sweep_map (widest : Option LineSpan) (cs : List RawChunk) :
    sweep widest (cs.map (RawChunk.restrict details)) =
      ((sweep widest cs).1.map (RawChunk.restrict details),
        (sweep widest cs).2.map (RawChunk.restrict details)) := by
  induction cs generalizing widest with
  | nil => rfl
  | cons c cs ih =>
    have hlines : (c.restrict details).lines = c.lines := rfl
    simp only [List.map_cons, sweep, hlines, ih]
    split <;> rfl

theorem swept_fst_map (raw : List RawChunk) :
    (swept (raw.map (RawChunk.restrict details))).1 =
      (swept raw).1.map (RawChunk.restrict details) := by
  rw [swept, candidates_map, mergeSort_map, sweep_map]
  rfl

theorem assemble_restrict (imports : Bool) (raw : List RawChunk) (is : List Import)
    (filePath : String) (language : Language) :
    assemble (raw.map (RawChunk.restrict details)) (if imports then is else []) filePath language =
      (assemble raw is filePath language).map (Chunk.restrict imports details) := by
  rw [assemble, assemble, swept_fst_map, List.zipIdx_map, List.map_map, List.map_map]
  rfl

end Assembly

namespace Chunker

open Assembly Extraction Syntax

theorem extractFrom_imports (config : Config) (policy : Policy) (filePath source : String)
    (root : Node) :
    (extractFrom config policy filePath source root).imports =
      if config.includeImports then imports policy.language source root else [] := by
  rw [extractFrom]
  split <;> rfl

theorem chunksOf_eq_restrict (config : Config) (policy : Policy) (filePath source : String)
    (root : Node) :
    chunksOf config policy filePath source root =
      (chunksOf {} policy filePath source root).map
        (Chunk.restrict config.includeImports config.includeDetails) := by
  rw [chunksOf, chunksOf]
  simp only [extractFrom_raw, extractFrom_imports]
  rw [extract_raw_eq_map, assemble_restrict]
  rfl

/-- Of all settings only the two switches show in the chunks of a text, and they show in nothing
but imports and details. -/
theorem chunkText_switches (c d : Chunker) (lib : ParserLibrary) (policy : Policy)
    (filePath source : String) {root : Node} (hparse : lib.parse policy source = .ok root) :
    ∃ xs ys : List Chunk,
      c.chunkText lib policy filePath source = .ok xs ∧
      d.chunkText lib policy filePath source = .ok ys ∧
      List.Forall₂ Chunk.SameCore xs ys ∧
      (d.config.includeImports → d.config.includeDetails →
        xs = ys.map (Chunk.restrict c.config.includeImports c.config.includeDetails)) := by
  refine ⟨_, _, chunkText_of_parse hparse filePath, chunkText_of_parse hparse filePath, ?_, ?_⟩
  · rw [chunksOf_eq_restrict c.config, chunksOf_eq_restrict d.config, List.forall₂_map_left_iff,
      List.forall₂_map_right_iff, List.forall₂_same]
    intro x _
    exact x.sameCore_restrict _ _ _ _
  · intro himports hdetails
    rw [chunksOf_eq_restrict c.config, chunksOf_eq_restrict d.config, himports, hdetails,
      List.map_map]
    rfl

def requiring : ParserLibrary := .ofTable fun _ _ => some Requiring.tree

def shown (c : Chunk) : String × Nat × Bool :=
  (c.metadata.name, c.metadata.imports.length, c.metadata.details.isSome)

theorem shown_chunksOf_requiring (config : Config) :
    (chunksOf config (.ofLanguage .typescript) "m.ts" Requiring.source Requiring.tree).map shown =
      [("import", if config.includeImports then 1 else 0, false),
        ("f", if config.includeImports then 1 else 0, config.includeDetails),
        ("import", if config.includeImports then 1 else 0, false)] := by
  rw [chunksOf_eq_restrict, chunksOf_eq_mapIdx, swept_eq,
    List.mergeSort_of_pairwise (by decide +kernel)]
  generalize config.includeImports = i
  generalize config.includeDetails = d
  revert i d
  decide +kernel

theorem chunkText_switches_minimal :
    requiring.parse (.ofLanguage .typescript) Requiring.source = .ok Requiring.tree ∧
      ∃ xs ys : List Chunk,
        Chunker.chunkText ⟨.minimal, {}⟩ requiring (.ofLanguage .typescript) "m.ts"
          Requiring.source = .ok xs ∧
        Chunker.chunkText ⟨{}, {}⟩ requiring (.ofLanguage .typescript) "m.ts"
          Requiring.source = .ok ys ∧
        List.Forall₂ Chunk.SameCore xs ys ∧
        xs = ys.map (Chunk.restrict false false) ∧
        xs.map shown = [("import", 0, false), ("f", 0, false), ("import", 0, false)] ∧
        ys.map shown = [("import", 1, false), ("f", 1, true), ("import", 1, false)] := by
  have hparse : requiring.parse (.ofLanguage .typescript) Requiring.source =
      .ok Requiring.tree := rfl
  obtain ⟨xs, ys, hxs, hys, hsame, hrestrict⟩ :=
    chunkText_switches ⟨.minimal, {}⟩ ⟨{}, {}⟩ requiring (.ofLanguage .typescript) "m.ts"
      Requiring.source hparse
  refine ⟨hparse, xs, ys, hxs, hys, hsame, hrestrict rfl rfl, ?_, ?_⟩
  · obtain rfl := Except.ok.inj (hxs.symm.trans (chunkText_of_parse hparse "m.ts"))
    exact shown_chunksOf_requiring .minimal
  · obtain rfl := Except.ok.inj (hys.symm.trans (chunkText_of_parse hparse "m.ts"))
    exact shown_chunksOf_requiring {}

end Chunker

end CodeChunks
