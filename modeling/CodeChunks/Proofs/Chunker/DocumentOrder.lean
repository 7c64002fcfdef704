import CodeChunks.Chunker
import CodeChunks.Proofs.Assembly.Plain
import CodeChunks.Proofs.Extraction.Spans

namespace CodeChunks.Assembly

open Extraction (Anchored)

theorem firstBySpan_eq_self {seen : List (Nat × Nat)} {cs : List RawChunk}
    (hseen : ∀ c ∈ cs, byteSpan c ∉ seen)
    (hcs : cs.Pairwise fun a b => byteSpan a ≠ byteSpan b) : firstBySpan seen cs = cs := by
  induction cs generalizing seen with
  | nil => rfl
  | cons c cs ih =>
    obtain ⟨hc, hcs⟩ := List.pairwise_cons.1 hcs
    have htail : ∀ d ∈ cs, byteSpan d ∉ byteSpan c :: seen := by
      intro d hd
      simp [Ne.symm (hc d hd), hseen d (by simp [hd])]
    simp [firstBySpan, hseen c (by simp), ih htail hcs]

def nonBlank (raw : List RawChunk) : List RawChunk := raw.filter fun c => !Text.IsBlank c.content

theorem mem_nonBlank {raw : List RawChunk} {c : RawChunk} :
    c ∈ nonBlank raw ↔ c ∈ raw ∧ ¬Text.IsBlank c.content := by
  simp [nonBlank]

section Layout

variable {source : String} {raw : List RawChunk} (hraw : ∀ c ∈ raw, Anchored source c)
  (hapart : raw.Pairwise fun a b => a.stop ≤ b.start)

include hraw hapart

theorem pairwise_nonBlank :
    (nonBlank raw).Pairwise fun a b =>
      a.start < b.start ∧ a.stop < b.stop ∧ a.stop ≤ b.start := by
  have h := hapart.sublist (List.filter_sublist (p := fun c => !Text.IsBlank c.content))
  refine List.Pairwise.imp_of_mem (fun {a b} ha hb hab => ?_) h
  obtain ⟨ha, hblankA⟩ := mem_nonBlank.1 ha
  obtain ⟨hb, hblankB⟩ := mem_nonBlank.1 hb
  have hltA := (hraw a ha).start_lt_stop hblankA
  have hltB := (hraw b hb).start_lt_stop hblankB
  omega

theorem candidates_eq_nonBlank : candidates raw = nonBlank raw := by
  apply firstBySpan_eq_self
  · simp
  · refine (pairwise_nonBlank hraw hapart).imp fun {a b} hab heq => ?_
    simp only [byteSpan, Prod.mk.injEq] at heq
    omega

theorem pairwise_startsNoLater : (nonBlank raw).Pairwise fun a b => startsNoLater a b := by
  refine List.Pairwise.imp_of_mem (fun {a b} ha hb hab => ?_) (pairwise_nonBlank hraw hapart)
  obtain ⟨ha, hblankA⟩ := mem_nonBlank.1 ha
  obtain ⟨hb, hblankB⟩ := mem_nonBlank.1 hb
  have hrow := Text.row_mono source (Nat.le_of_lt hab.1)
  rw [startsNoLater, decide_eq_true_eq, (hraw a ha).lineStart_eq hblankA,
    (hraw b hb).lineStart_eq hblankB]
  omega

theorem swept_fst_eq_filter :
    (swept raw).1 = (nonBlank raw).filter (outermost (nonBlank raw)) := by
  rw [swept_eq, filter_outermost_mergeSort, candidates_eq_nonBlank hraw hapart,
    List.mergeSort_of_pairwise (pairwise_startsNoLater hraw hapart)]

theorem swept_fst_sublist : (swept raw).1.Sublist raw := by
  rw [swept_fst_eq_filter hraw hapart]
  exact List.filter_sublist.trans List.filter_sublist

theorem filter_mem_swept_fst : raw.filter (· ∈ (swept raw).1) = (swept raw).1 := by
  have hmem : ∀ c ∈ raw, decide (c ∈ (swept raw).1) =
      (outermost (nonBlank raw) c && !decide (Text.IsBlank c.content)) := by
    intro c hc
    rw [swept_fst_eq_filter hraw hapart]
    simp [mem_nonBlank, hc, and_comm]
  rw [List.filter_congr hmem, ← List.filter_filter, swept_fst_eq_filter hraw hapart]
  rfl

theorem blank_or_inside_of_not_mem_swept_fst {c : RawChunk} (hc : c ∈ raw)
    (hdropped : c ∉ (swept raw).1) :
    Text.IsBlank c.content ∨ ∃ k ∈ (swept raw).1, k.lines.strictlyContains c.lines := by
  by_cases hblank : Text.IsBlank c.content
  · exact .inl hblank
  · have hcand : c ∈ candidates raw := by
      rw [candidates_eq_nonBlank hraw hapart]
      exact mem_nonBlank.2 ⟨hc, hblank⟩
    exact .inr (exists_kept_of_not_outermost hcand fun hout =>
      hdropped (mem_swept_fst.2 ⟨hcand, hout⟩))

end Layout

theorem filter_mem_mergeSort (raw : List RawChunk) :
    ((candidates raw).mergeSort ordered).filter (· ∈ (swept raw).1) = (swept raw).1 := by
  have hmem : ∀ c ∈ (candidates raw).mergeSort ordered,
      decide (c ∈ (swept raw).1) = outermost (candidates raw) c := by
    intro c hc
    simp [mem_swept_fst, List.mem_mergeSort.1 hc]
  rw [List.filter_congr hmem, swept_eq]

end CodeChunks.Assembly

namespace CodeChunks.Chunker

open Assembly Extraction Syntax

/-- What is kept of a list of raw chunks when they come in the order of the text. -/
structure InDocumentOrder (raw kept : List RawChunk) : Prop where
  sublist : kept.Sublist raw
  apart : kept.Pairwise fun a b => a.start < b.start ∧ a.stop < b.stop ∧ a.stop ≤ b.start
  distinct : candidates raw = raw.filter fun r => !Text.IsBlank r.content
  unmoved : ((candidates raw).mergeSort ordered).filter (· ∈ kept) = raw.filter (· ∈ kept)
  accounted : ∀ r ∈ raw, r ∉ kept →
    Text.IsBlank r.content ∨ ∃ k ∈ kept, k.lines.strictlyContains r.lines

theorem swept_inDocumentOrder {source : String} {raw : List RawChunk}
    (hraw : ∀ r ∈ raw, Anchored source r) (hapart : raw.Pairwise fun a b => a.stop ≤ b.start) :
    InDocumentOrder raw (swept raw).1 where
  sublist := swept_fst_sublist hraw hapart
  apart := by
    rw [swept_fst_eq_filter hraw hapart]
    exact (pairwise_nonBlank hraw hapart).sublist List.filter_sublist
  distinct := candidates_eq_nonBlank hraw hapart
  unmoved := by rw [filter_mem_mergeSort, filter_mem_swept_fst hraw hapart]
  accounted := fun _ hr => blank_or_inside_of_not_mem_swept_fst hraw hapart hr

theorem extractFrom_raw (config : Config) (policy : Policy) (filePath source : String)
    (root : Node) :
    (extractFrom config policy filePath source root).raw =
      (extract policy.language config.includeDetails source filePath root).raw := by
  rw [extractFrom]
  split <;> rfl

theorem chunksOf_eq_mapIdx (config : Config) (policy : Policy) (filePath source : String)
    (root : Node) :
    chunksOf config policy filePath source root =
      (swept (extract policy.language config.includeDetails source filePath root).raw).1.mapIdx
        fun seq r => record policy.language filePath
          (extractFrom config policy filePath source root).imports r seq := by
  rw [List.mapIdx_eq_zipIdx_map, ← extractFrom_raw]
  rfl

theorem map_content_record (language : Language) (filePath : String) (imports : List Import)
    (rs : List RawChunk) :
    (rs.mapIdx fun seq r => record language filePath imports r seq).map (·.content) =
      rs.map (·.content) :=
  List.ext_getElem (by simp) (by simp [record])

theorem chunkText_of_parse {c : Chunker} {lib : ParserLibrary} {policy : Policy}
    {source : String} {root : Node} (h : lib.parse policy source = .ok root) (filePath : String) :
    c.chunkText lib policy filePath source =
      .ok (chunksOf c.config policy filePath source root) := by
  rw [chunkText, h]
  rfl

/-- The chunks of a text are raw chunks of its tree, numbered in the order in which they were
found. -/
theorem chunkText_document_order (c : Chunker) (lib : ParserLibrary) (policy : Policy)
    (filePath source : String) {root : Node} (hparse : lib.parse policy source = .ok root)
    (hroot : root.WellFormed source) :
    ∃ kept : List RawChunk,
      c.chunkText lib policy filePath source = .ok (kept.mapIdx fun seq r =>
        record policy.language filePath
          (extractFrom c.config policy filePath source root).imports r seq) ∧
      InDocumentOrder
        (extract policy.language c.config.includeDetails source filePath root).raw kept := by
  refine ⟨_, (chunkText_of_parse hparse filePath).trans
    (congrArg Except.ok (chunksOf_eq_mapIdx c.config policy filePath source root)), ?_⟩
  exact swept_inDocumentOrder (fun r hr => anchored_of_mem_raw _ _ hroot hr)
    (pairwise_raw _ _ hroot)

namespace SharedLine

def source : String := "let a = 1; function f() \x7b\n\x7d\n"

abbrev node := Node.clean source true

def tree : Node :=
  node "program" [] 0 28
    [node "lexical_declaration" [] 0 10 [], node "function_declaration" [] 11 27 []]

def parses : ParserLibrary := .ofTable fun _ _ => some tree

theorem tree_wellFormed : tree.WellFormed source := by
  have hdeclaration : (node "lexical_declaration" [] 0 10 []).WellFormed source :=
    .mk (by decide) (by decide +kernel) (by decide +kernel) Node.pointed_clean (by simp) (by simp)
      (by simp)
  have hfunction : (node "function_declaration" [] 11 27 []).WellFormed source :=
    .mk (by decide) (by decide +kernel) (by decide +kernel) Node.pointed_clean (by simp) (by simp)
      (by simp)
  exact .mk (by decide) (by decide +kernel) (by decide +kernel) Node.pointed_clean (by decide)
    (by decide) (by simp [hdeclaration, hfunction])

end SharedLine

open SharedLine

theorem chunkText_document_order_shared_line :
    let raw := (extract .javascript true source "a.js" tree).raw
    parses.parse (.ofLanguage .javascript) source = .ok tree ∧
      tree.WellFormed source ∧
      raw.map (·.content) = ["let a = 1;", "function f() \x7b\n\x7d"] ∧
      ∃ kept : List RawChunk,
        Chunker.chunkText ⟨{}, {}⟩ parses (.ofLanguage .javascript) "a.js" source =
          .ok (kept.mapIdx fun seq r => record .javascript "a.js"
            (extractFrom {} (.ofLanguage .javascript) "a.js" source tree).imports r seq) ∧
        InDocumentOrder raw kept ∧ kept.map (·.content) = ["function f() \x7b\n\x7d"] := by
  intro raw
  have hparse : parses.parse (.ofLanguage .javascript) source = .ok tree := rfl
  obtain ⟨kept, hchunks, horder⟩ :=
    chunkText_document_order ⟨{}, {}⟩ parses (.ofLanguage .javascript) "a.js" source hparse
      tree_wellFormed
  have hchunksOf := Except.ok.inj
    (hchunks.symm.trans (chunkText_of_parse (c := ⟨{}, {}⟩) hparse "a.js"))
  have hkept := congrArg (List.map (·.content)) hchunksOf
  rw [map_content_record, chunksOf_eq_mapIdx, map_content_record, swept_eq,
    filter_outermost_mergeSort, List.mergeSort_of_pairwise (by decide +kernel)] at hkept
  exact ⟨hparse, tree_wellFormed, by decide +kernel, kept, hchunks, horder,
    hkept.trans (by decide +kernel)⟩

end CodeChunks.Chunker
