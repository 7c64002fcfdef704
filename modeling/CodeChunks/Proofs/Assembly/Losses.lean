import CodeChunks.Proofs.Assembly.Places

namespace CodeChunks.Assembly

theorem mem_map_byteSpan_firstBySpan {seen : List (Nat × Nat)} {cs : List RawChunk}
    {s : Nat × Nat} :
    s ∈ (firstBySpan seen cs).map byteSpan ↔ s ∉ seen ∧ s ∈ cs.map byteSpan := by
  induction cs generalizing seen with
  | nil => simp [firstBySpan]
  | cons c cs ih =>
    by_cases hc : byteSpan c ∈ seen
    · rw [firstBySpan, if_pos hc, ih, List.map_cons, List.mem_cons]
      constructor
      · rintro ⟨hs, hcs⟩
        exact ⟨hs, .inr hcs⟩
      · rintro ⟨hs, rfl | hcs⟩
        · exact absurd hc hs
        · exact ⟨hs, hcs⟩
    · rw [firstBySpan, if_neg hc, List.map_cons, List.mem_cons, ih, List.mem_cons, List.map_cons,
        List.mem_cons]
      by_cases hs : s = byteSpan c
      · simp [hs, hc]
      · simp [hs]

theorem nodup_map_byteSpan_firstBySpan (seen : List (Nat × Nat)) (cs : List RawChunk) :
    ((firstBySpan seen cs).map byteSpan).Nodup := by
  induction cs generalizing seen with
  | nil => exact List.nodup_nil
  | cons c cs ih =>
    by_cases hc : byteSpan c ∈ seen
    · rw [firstBySpan, if_pos hc]
      exact ih seen
    · rw [firstBySpan, if_neg hc, List.map_cons, List.nodup_cons, mem_map_byteSpan_firstBySpan]
      exact ⟨fun h => h.1 (List.mem_cons_self ..), ih _⟩

theorem length_candidates (raw : List RawChunk) :
    (candidates raw).length =
      ((raw.filter fun c => !Text.IsBlank c.content).map byteSpan).toFinset.card := by
  have hspans : ((candidates raw).map byteSpan).toFinset =
      ((raw.filter fun c => !Text.IsBlank c.content).map byteSpan).toFinset := by
    ext s
    rw [List.mem_toFinset, List.mem_toFinset, candidates, mem_map_byteSpan_firstBySpan]
    simp only [List.not_mem_nil, not_false_eq_true, true_and]
  have hnodup : ((candidates raw).map byteSpan).Nodup := nodup_map_byteSpan_firstBySpan _ _
  rw [← hspans, List.toFinset_card_of_nodup hnodup, List.length_map]

variable {raw : List RawChunk} {imports : List Import} {filePath : String} {language : Language}

/-- The lines of the chunk at the place all belong to a record that has more. -/
def Inside (raw : List RawChunk) (records : List Chunk) (p : Fin raw.length) : Prop :=
  ∃ c ∈ records, c.lines.strictlyContains (raw.get p).lines

theorem inside_iff_not_outermost {p : Fin raw.length} (hp : Leads raw p) :
    Inside raw (assemble raw imports filePath language) p ↔
      ¬outermost (candidates raw) (raw.get p) := by
  constructor
  · rintro ⟨c, hc, hcp⟩
    have hmem := List.mem_map_of_mem (f := Chunk.lines) hc
    rw [map_lines_assemble] at hmem
    obtain ⟨k, hk, hlines⟩ := List.mem_map.1 hmem
    exact not_outermost_iff.2 ⟨k, (mem_swept_fst.1 hk).1, hlines ▸ hcp⟩
  -- The chunk that holds it may be dropped in its turn, but then a kept one holds both.
  · intro h
    obtain ⟨k, hk, hkp⟩ := exists_kept_of_not_outermost (mem_candidates_of_leads hp) h
    have hmem := List.mem_map_of_mem (f := RawChunk.lines) hk
    rw [← map_lines_assemble raw imports filePath language] at hmem
    obtain ⟨c, hc, hlines⟩ := List.mem_map.1 hmem
    exact ⟨c, hc, hlines ▸ hkp⟩

theorem mem_keptPlaces_iff_not_inside {p : Fin raw.length} :
    p ∈ keptPlaces raw ↔
      Leads raw p ∧ ¬Inside raw (assemble raw imports filePath language) p := by
  rw [mem_keptPlaces]
  exact and_congr_right fun hp => by rw [inside_iff_not_outermost hp, not_not]

theorem mem_droppedPlaces_iff_inside {p : Fin raw.length} :
    p ∈ droppedPlaces raw ↔
      Leads raw p ∧ Inside raw (assemble raw imports filePath language) p := by
  rw [mem_droppedPlaces]
  exact and_congr_right fun hp => (inside_iff_not_outermost hp).symm

theorem dropEvents_eq_places (raw : List RawChunk) (filePath : String) :
    dropEvents raw filePath = (droppedPlaces raw).map fun p =>
      .dropped filePath (raw.get p).type (raw.get p).name (raw.get p).lines := by
  rw [dropEvents, swept_eq_places, List.map_map]
  rfl

theorem message_dropped (filePath name : String) (type : ChunkType) (lines : LineSpan) :
    (Event.dropped filePath type name lines).message =
      "Dropping " ++ type.name ++ " `" ++ name ++ "` in " ++ filePath ++ ": lines " ++
        toString lines.start ++ "-" ++ toString lines.stop ++ " lie inside another chunk" :=
  rfl

theorem warn_of_mem_dropEvents {e : Event} (he : e ∈ dropEvents raw filePath) :
    e.level = .warn ∧ "Dropping ".toList <+: e.message.toList := by
  rw [dropEvents, List.mem_map] at he
  obtain ⟨c, -, rfl⟩ := he
  refine ⟨rfl, ?_⟩
  simp only [message_dropped, String.toList_append, List.append_assoc]
  exact List.prefix_append _ _

theorem nodup_sortedPlaces (raw : List RawChunk) : (sortedPlaces raw).Nodup :=
  (List.mergeSort_perm _ _).nodup_iff.2 ((pairwise_leaders raw).imp ne_of_lt)

theorem length_keptPlaces_add_length_droppedPlaces (raw : List RawChunk) :
    (keptPlaces raw).length + (droppedPlaces raw).length = (candidates raw).length := by
  have hsorted : (sortedPlaces raw).length = (candidates raw).length := by
    rw [← List.length_map raw.get, map_sortedPlaces, List.length_mergeSort]
  rw [← hsorted]
  exact (List.length_eq_length_filter_add fun p => outermost (candidates raw) (raw.get p)).symm

/-- A raw chunk without a record is blank, a repetition, or inside a record; those that are missing
for the last reason alone have one warning each. -/
theorem assemble_losses (raw : List RawChunk) (imports : List Import) (filePath : String)
    (language : Language) :
    let records := assemble raw imports filePath language
    let warnings := dropEvents raw filePath
    ∃ kept lost : List (Fin raw.length),
      kept.Nodup ∧ lost.Nodup ∧
      records = (kept.mapIdx fun seq p => record language filePath imports (raw.get p) seq) ∧
      warnings = (lost.map fun p =>
        .dropped filePath (raw.get p).type (raw.get p).name (raw.get p).lines) ∧
      (∀ p, p ∉ kept ↔ Text.IsBlank (raw.get p).content ∨ Repeated raw p ∨ Inside raw records p) ∧
      (∀ p, p ∈ lost ↔
        ¬Text.IsBlank (raw.get p).content ∧ ¬Repeated raw p ∧ Inside raw records p) ∧
      (∀ e ∈ warnings, e.level = .warn ∧ "Dropping ".toList <+: e.message.toList) ∧
      records.length + warnings.length =
        ((raw.filter fun c => !Text.IsBlank c.content).map byteSpan).toFinset.card := by
  intro records warnings
  have hrecords : records = _ := assemble_eq_places raw imports filePath language
  have hwarnings : warnings = _ := dropEvents_eq_places raw filePath
  refine ⟨keptPlaces raw, droppedPlaces raw, (nodup_sortedPlaces raw).filter _,
    (nodup_sortedPlaces raw).filter _, hrecords, hwarnings, fun p => ?_, fun p => ?_,
    fun e he => warn_of_mem_dropEvents he, ?_⟩
  · rw [mem_keptPlaces_iff_not_inside, Leads]
    tauto
  · rw [mem_droppedPlaces_iff_inside, Leads, and_assoc]
  · calc
      records.length + warnings.length = (keptPlaces raw).length + (droppedPlaces raw).length := by
        rw [hrecords, hwarnings, List.length_mapIdx, List.length_map]
      _ = (candidates raw).length := length_keptPlaces_add_length_droppedPlaces raw
      _ = _ := length_candidates raw

end CodeChunks.Assembly
