import CodeChunks.Proofs.Assembly.Places

/-!
The records of a file form a chain. Of two records either both have the same lines, or the later one
starts and ends further down. So no record lies inside another, and records with the same lines
stand together, in the order in which their chunks were found.
-/

namespace CodeChunks

namespace LineSpan

def Precedes (a b : LineSpan) : Prop := a.start < b.start ∧ a.stop < b.stop

variable {a b c : LineSpan}

theorem apart_of_chain (h : a = b ∨ a.Precedes b) :
    ¬a.strictlyContains b ∧ ¬b.strictlyContains a := by
  rw [strictlyContains_iff, strictlyContains_iff]
  rcases h with rfl | ⟨hstart, hstop⟩
  · simp
  · omega

theorem le_of_chain (h : a = b ∨ a.Precedes b) : a.start ≤ b.start ∧ a.stop ≤ b.stop := by
  rcases h with rfl | ⟨hstart, hstop⟩
  · exact ⟨Nat.le_refl _, Nat.le_refl _⟩
  · exact ⟨Nat.le_of_lt hstart, Nat.le_of_lt hstop⟩

theorem eq_of_between (hab : a = b ∨ a.Precedes b) (hbc : b = c ∨ b.Precedes c) (hac : a = c) :
    b = a := by
  subst hac
  rcases hab with hab | hab
  · exact hab.symm
  · rcases hbc with hbc | hbc
    · exact hbc
    · exact absurd (Nat.lt_trans hab.1 hbc.1) (Nat.lt_irrefl _)

end LineSpan

namespace Assembly

variable (raw : List RawChunk)

theorem eq_or_precedes_of_ordered {a b : RawChunk} (h : ordered a b)
    (hab : ¬a.lines.strictlyContains b.lines) :
    a.lines = b.lines ∨ a.lines.Precedes b.lines := by
  rw [ordered_iff] at h
  rw [LineSpan.strictlyContains_iff] at hab
  simp only [lines_start, lines_stop] at hab
  rcases Nat.lt_or_ge a.lineStart b.lineStart with hlt | hge
  · exact .inr ⟨hlt, show a.lineEnd < b.lineEnd by omega⟩
  -- Of chunks that start together the longest comes first, so the later one can only be as long.
  · have hstart : a.lineStart = b.lineStart := by omega
    have hstop : a.lineEnd = b.lineEnd := by omega
    exact .inl (by rw [RawChunk.lines, RawChunk.lines, hstart, hstop])

theorem pairwise_ordered_places : (sortedPlaces raw).Pairwise fun p q => orderedAt raw p q :=
  List.pairwise_mergeSort orderedAt_trans orderedAt_total (leaders raw)

theorem filter_lines_sortedPlaces (s : LineSpan) :
    (sortedPlaces raw).filter (fun p => (raw.get p).lines = s) =
      (leaders raw).filter fun p => (raw.get p).lines = s := by
  -- Selecting commutes with sorting, and what is selected is in order whatever its order.
  rw [sortedPlaces, filter_mergeSort orderedAt_trans orderedAt_total]
  apply List.mergeSort_of_pairwise
  apply List.pairwise_of_forall_mem_list
  intro p hp q hq
  have hlines : (raw.get p).lines = (raw.get q).lines := by
    rw [List.mem_filter, decide_eq_true_eq] at hp hq
    rw [hp.2, hq.2]
  rw [orderedAt, ordered_iff, ← lines_start, ← lines_start, ← lines_stop, ← lines_stop, hlines]
  exact .inr ⟨rfl, Nat.le_refl _⟩

theorem pairwise_stable_places :
    (sortedPlaces raw).Pairwise fun p q => (raw.get p).lines = (raw.get q).lines → p < q := by
  rw [List.pairwise_iff_forall_sublist]
  intro p q hpq hlines
  have hfound : [p, q].Sublist
      ((leaders raw).filter fun r => (raw.get r).lines = (raw.get q).lines) := by
    have hpair := hpq.filter fun r => (raw.get r).lines = (raw.get q).lines
    rwa [List.filter_eq_self.2 (by simpa using hlines), filter_lines_sortedPlaces] at hpair
  simpa using (pairwise_leaders raw).sublist (hfound.trans List.filter_sublist)

theorem pairwise_keptPlaces :
    (keptPlaces raw).Pairwise fun p q =>
      (raw.get p).lines = (raw.get q).lines ∧ p < q ∨
        (raw.get p).lines.Precedes (raw.get q).lines := by
  have hsorted := ((pairwise_ordered_places raw).and (pairwise_stable_places raw)).sublist
    (List.filter_sublist (p := fun p => outermost (candidates raw) (raw.get p)))
  refine List.Pairwise.imp_of_mem (fun {p q} hp hq hpq => ?_) hsorted
  obtain ⟨hordered, hstable⟩ := hpq
  have hapart := outermost_iff.1 (mem_keptPlaces.1 hq).2 (raw.get p)
    (mem_candidates_of_leads (mem_keptPlaces.1 hp).1)
  rcases eq_or_precedes_of_ordered hordered hapart with hlines | hprecedes
  · exact .inl ⟨hlines, hstable hlines⟩
  · exact .inr hprecedes

variable (imports : List Import) (filePath : String) (language : Language)

theorem pairwise_lines_assemble :
    (assemble raw imports filePath language).Pairwise fun a b =>
      a.lines = b.lines ∨ a.lines.Precedes b.lines := by
  have hplaces : ((keptPlaces raw).map fun p => (raw.get p).lines).Pairwise fun s t =>
      s = t ∨ s.Precedes t := by
    rw [List.pairwise_map]
    exact (pairwise_keptPlaces raw).imp fun h => h.imp_left And.left
  have hlines : (assemble raw imports filePath language).map Chunk.lines =
      (keptPlaces raw).map fun p => (raw.get p).lines := by
    rw [map_lines_assemble, swept_eq_places, List.map_map]
    rfl
  rwa [← hlines, List.pairwise_map] at hplaces

structure Chained (records : List Chunk) : Prop where
  pairwise : records.Pairwise fun a b => a.lines = b.lines ∨ a.lines.Precedes b.lines
  apart : ∀ a ∈ records, ∀ b ∈ records, ¬a.strictlyContains b
  nondecreasing : records.Pairwise fun a b =>
    a.metadata.lineStart ≤ b.metadata.lineStart ∧ a.metadata.lineEnd ≤ b.metadata.lineEnd
  together : ∀ a b c, [a, b, c].Sublist records → a.lines = c.lines → b.lines = a.lines

theorem chained_of_pairwise {records : List Chunk}
    (h : records.Pairwise fun a b => a.lines = b.lines ∨ a.lines.Precedes b.lines) :
    Chained records where
  pairwise := h
  apart := by
    intro a ha b hb
    refine List.Pairwise.forall_of_forall_of_flip (R := fun a b => ¬a.strictlyContains b)
      ?_ ?_ ?_ ha hb
    · intro c _
      simp [Chunk.strictlyContains]
    · exact h.imp fun hab => (LineSpan.apart_of_chain hab).1
    · exact h.imp fun hab => (LineSpan.apart_of_chain hab).2
  nondecreasing := h.imp fun hab => LineSpan.le_of_chain hab
  together := by
    intro a b c habc hac
    have hthree := h.sublist habc
    simp only [List.pairwise_cons, List.mem_cons, List.not_mem_nil, or_false] at hthree
    obtain ⟨ha, hb, -⟩ := hthree
    exact LineSpan.eq_of_between (ha b (.inl rfl)) (hb c rfl) hac

/-- Records come in a chain of line spans, and those with the same lines in the order in which their
chunks were found. -/
theorem assemble_chain :
    Chained (assemble raw imports filePath language) ∧
    ∃ places : List (Fin raw.length),
      assemble raw imports filePath language =
        (places.mapIdx fun seq p => record language filePath imports (raw.get p) seq) ∧
      places.Pairwise fun p q =>
        (raw.get p).lines = (raw.get q).lines ∧ p < q ∨
          (raw.get p).lines.Precedes (raw.get q).lines :=
  ⟨chained_of_pairwise (pairwise_lines_assemble raw imports filePath language), keptPlaces raw,
    assemble_eq_places raw imports filePath language, pairwise_keptPlaces raw⟩

end Assembly

end CodeChunks
