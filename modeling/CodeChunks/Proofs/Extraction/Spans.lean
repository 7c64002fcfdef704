import CodeChunks.Extraction.Traversal
import CodeChunks.Proofs.Syntax.Layout

namespace CodeChunks.Extraction

open Syntax

variable {l : Language} {source : String}

theorem mem_sites_node {n : Node} {s : Site} (h : s ∈ n.sites) : s.node ∈ n.children := by
  rw [← n.map_node_sites]
  exact List.mem_map_of_mem h

theorem wellFormed_expand {s : Site} {rest : List Site}
    (h : ∀ t ∈ s :: rest, t.node.WellFormed source) :
    ∀ t ∈ s.node.sites ++ rest, t.node.WellFormed source := by
  intro t ht
  rcases List.mem_append.1 ht with ht | ht
  · exact (h s (by simp)).of_mem_children (mem_sites_node ht)
  · exact h t (by simp [ht])

theorem wellFormed_of_mem_chunkRoots {ss : List Site}
    (hwf : ∀ s ∈ ss, s.node.WellFormed source) {r : Site × Kind} (hr : r ∈ chunkRoots l ss) :
    r.1.node.WellFormed source ∧
      ∃ s ∈ ss, s.node.start ≤ r.1.node.start ∧ r.1.node.stop ≤ s.node.stop := by
  fun_induction chunkRoots l ss with
  | case1 => cases hr
  | case2 s rest kind h ih =>
    rcases List.mem_cons.1 hr with rfl | hr
    · exact ⟨hwf s (by simp), s, by simp, Nat.le_refl _, Nat.le_refl _⟩
    · obtain ⟨hr, t, ht, hspan⟩ := ih (fun t ht => hwf t (by simp [ht])) hr
      exact ⟨hr, t, by simp [ht], hspan⟩
  | case3 s rest h ih =>
    obtain ⟨hr, t, ht, hspan⟩ := ih (wellFormed_expand hwf) hr
    refine ⟨hr, ?_⟩
    rcases List.mem_append.1 ht with ht | ht
    · have hchild := (hwf s (by simp)).span_of_mem_children (mem_sites_node ht)
      exact ⟨s, by simp, by omega, by omega⟩
    · exact ⟨t, by simp [ht], hspan⟩

theorem pairwise_sites {n : Node} (h : n.WellFormed source) :
    n.sites.Pairwise fun a b => a.node.stop ≤ b.node.start := by
  have := h.pairwise_children
  rwa [← n.map_node_sites, List.pairwise_map] at this

theorem pairwise_chunkRoots {ss : List Site} (hwf : ∀ s ∈ ss, s.node.WellFormed source)
    (hss : ss.Pairwise fun a b => a.node.stop ≤ b.node.start) :
    (chunkRoots l ss).Pairwise fun a b => a.1.node.stop ≤ b.1.node.start := by
  fun_induction chunkRoots l ss with
  | case1 => exact .nil
  | case2 s rest kind h ih =>
    obtain ⟨hs, hrest⟩ := List.pairwise_cons.1 hss
    have hwfRest : ∀ t ∈ rest, t.node.WellFormed source := fun t ht => hwf t (by simp [ht])
    refine List.pairwise_cons.2 ⟨fun r hr => ?_, ih hwfRest hrest⟩
    obtain ⟨-, t, ht, hspan⟩ := wellFormed_of_mem_chunkRoots hwfRest hr
    exact Nat.le_trans (hs t ht) hspan.1
  | case3 s rest h ih =>
    obtain ⟨hs, hrest⟩ := List.pairwise_cons.1 hss
    have hwfS := hwf s (by simp)
    apply ih (wellFormed_expand hwf)
    refine List.pairwise_append.2 ⟨pairwise_sites hwfS, hrest, fun t ht u hu => ?_⟩
    exact Nat.le_trans (hwfS.span_of_mem_children (mem_sites_node ht)).2 (hs u hu)

/-- A chunk whose text and lines are those of its byte span. -/
structure Anchored (source : String) (c : RawChunk) : Prop where
  start_le_stop : c.start ≤ c.stop
  stop_le_length : c.stop ≤ (Text.bytes source).length
  content_eq : c.content = Text.slice source c.start c.stop
  lines_eq : c.start < c.stop →
    c.lines = ⟨Text.row source c.start + 1, Text.row source (c.stop - 1) + 1⟩

theorem anchored_rawChunk (withDetails : Bool) {s : Site} (h : s.node.WellFormed source) :
    Anchored source (rawChunk l withDetails source s) where
  start_le_stop := h.start_le
  stop_le_length := h.stop_le_length
  content_eq := rfl
  lines_eq := by
    intro hlt
    have hlines := Node.lineSpan_eq h.pointed hlt h.stop_le_length
    simp [rawChunk, RawChunk.lines, hlines]

theorem Anchored.start_lt_stop {c : RawChunk} (h : Anchored source c)
    (hc : ¬Text.IsBlank c.content) : c.start < c.stop := by
  refine Nat.lt_of_le_of_ne h.start_le_stop fun heq => hc ?_
  rw [h.content_eq, heq, Text.slice_self]
  simp [Text.IsBlank]

theorem Anchored.lineStart_eq {c : RawChunk} (h : Anchored source c)
    (hc : ¬Text.IsBlank c.content) : c.lineStart = Text.row source c.start + 1 :=
  congrArg LineSpan.start (h.lines_eq (h.start_lt_stop hc))

variable {root : Node} (withDetails : Bool) (filePath : String)

theorem anchored_of_mem_raw (h : root.WellFormed source) {c : RawChunk}
    (hc : c ∈ (extract l withDetails source filePath root).raw) : Anchored source c := by
  obtain ⟨r, hr, rfl⟩ := List.mem_map.1 hc
  exact anchored_rawChunk withDetails (wellFormed_of_mem_chunkRoots (by simpa using h) hr).1

theorem pairwise_raw (h : root.WellFormed source) :
    (extract l withDetails source filePath root).raw.Pairwise fun a b => a.stop ≤ b.start := by
  rw [extract, List.pairwise_map]
  exact pairwise_chunkRoots (by simpa using h) (List.pairwise_singleton _ _)

end CodeChunks.Extraction
