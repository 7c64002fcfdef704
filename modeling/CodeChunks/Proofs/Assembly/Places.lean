import CodeChunks.Proofs.Assembly.Plain
import Mathlib.Data.Fintype.Card

namespace CodeChunks.Assembly

variable (raw : List RawChunk)

def Repeated (p : Fin raw.length) : Prop :=
  ∃ q < p, ¬Text.IsBlank (raw.get q).content ∧ byteSpan (raw.get q) = byteSpan (raw.get p)

instance (p : Fin raw.length) : Decidable (Repeated raw p) :=
  inferInstanceAs (Decidable
    (∃ q < p, ¬Text.IsBlank (raw.get q).content ∧ byteSpan (raw.get q) = byteSpan (raw.get p)))

/-- The chunk at the place holds text and is the first with its byte span that does. -/
def Leads (p : Fin raw.length) : Prop := ¬Text.IsBlank (raw.get p).content ∧ ¬Repeated raw p

instance (p : Fin raw.length) : Decidable (Leads raw p) :=
  inferInstanceAs (Decidable (¬Text.IsBlank (raw.get p).content ∧ ¬Repeated raw p))

def leaders : List (Fin raw.length) := (List.finRange raw.length).filter (Leads raw ·)

variable {raw}

@[simp] theorem mem_leaders {p : Fin raw.length} : p ∈ leaders raw ↔ Leads raw p := by
  simp [leaders]

theorem pairwise_leaders (raw : List RawChunk) : (leaders raw).Pairwise (· < ·) :=
  (List.pairwise_lt_finRange _).sublist List.filter_sublist

def FirstAmong (seen : List (Nat × Nat)) (ps : List (Fin raw.length)) (p : Fin raw.length) :
    Prop :=
  byteSpan (raw.get p) ∉ seen ∧ ∀ q ∈ ps, q < p → byteSpan (raw.get q) ≠ byteSpan (raw.get p)

instance (seen : List (Nat × Nat)) (ps : List (Fin raw.length)) :
    DecidablePred (FirstAmong seen ps) := fun p =>
  inferInstanceAs (Decidable (byteSpan (raw.get p) ∉ seen ∧
    ∀ q ∈ ps, q < p → byteSpan (raw.get q) ≠ byteSpan (raw.get p)))

theorem firstAmong_cons {seen : List (Nat × Nat)} {p q : Fin raw.length}
    {ps : List (Fin raw.length)} (hpq : p < q) :
    FirstAmong seen (p :: ps) q ↔ FirstAmong (byteSpan (raw.get p) :: seen) ps q := by
  rw [FirstAmong, FirstAmong, List.forall_mem_cons, List.mem_cons, not_or]
  constructor
  · rintro ⟨hseen, hp, hps⟩
    exact ⟨⟨(hp hpq).symm, hseen⟩, hps⟩
  · rintro ⟨⟨hp, hseen⟩, hps⟩
    exact ⟨hseen, fun _ => Ne.symm hp, hps⟩

theorem firstAmong_of_taken {seen : List (Nat × Nat)} {p q : Fin raw.length}
    {ps : List (Fin raw.length)} (hp : byteSpan (raw.get p) ∈ seen) :
    FirstAmong (byteSpan (raw.get p) :: seen) ps q ↔ FirstAmong seen ps q := by
  have hseen : byteSpan (raw.get q) ∈ byteSpan (raw.get p) :: seen ↔
      byteSpan (raw.get q) ∈ seen := by
    rw [List.mem_cons, or_iff_right_of_imp]
    intro heq
    rwa [heq]
  rw [FirstAmong, FirstAmong, hseen]

theorem firstBySpan_places (seen : List (Nat × Nat)) {ps : List (Fin raw.length)}
    (hps : ps.Pairwise (· < ·)) :
    firstBySpan seen (ps.map raw.get) = (ps.filter (FirstAmong seen ps ·)).map raw.get := by
  induction ps generalizing seen with
  | nil => rfl
  | cons p ps ih =>
    obtain ⟨hp, hps⟩ := List.pairwise_cons.1 hps
    have hrest : ps.filter (FirstAmong seen (p :: ps) ·) =
        ps.filter (FirstAmong (byteSpan (raw.get p) :: seen) ps ·) :=
      List.filter_congr fun q hq => decide_eq_decide.2 (firstAmong_cons (hp q hq))
    by_cases hseen : byteSpan (raw.get p) ∈ seen
    -- The head goes, and as its span was taken before, it takes nothing from the places behind it.
    · have hhead : ¬FirstAmong seen (p :: ps) p := fun h => h.1 hseen
      have htaken : ps.filter (FirstAmong (byteSpan (raw.get p) :: seen) ps ·) =
          ps.filter (FirstAmong seen ps ·) :=
        List.filter_congr fun q _ => decide_eq_decide.2 (firstAmong_of_taken hseen)
      rw [List.map_cons, firstBySpan, if_pos hseen, ih _ hps, List.filter_cons_of_neg (by simpa),
        hrest, htaken]
    · have hhead : FirstAmong seen (p :: ps) p := by
        refine ⟨hseen, fun q hq hlt => ?_⟩
        rcases List.mem_cons.1 hq with rfl | hq
        · exact absurd hlt (lt_irrefl q)
        · exact absurd hlt (hp q hq).asymm
      rw [List.map_cons, firstBySpan, if_neg hseen, List.filter_cons_of_pos (by simpa),
        List.map_cons, hrest]
      exact congrArg _ (ih _ hps)

def textPlaces (raw : List RawChunk) : List (Fin raw.length) :=
  (List.finRange raw.length).filter fun p => !Text.IsBlank (raw.get p).content

theorem pairwise_textPlaces (raw : List RawChunk) : (textPlaces raw).Pairwise (· < ·) :=
  (List.pairwise_lt_finRange _).sublist List.filter_sublist

theorem map_textPlaces (raw : List RawChunk) :
    (textPlaces raw).map raw.get = raw.filter fun c => !Text.IsBlank c.content := by
  have htext := List.filter_map (f := raw.get) (p := fun c => !Text.IsBlank c.content)
    (l := List.finRange raw.length)
  simp only [List.map_get_finRange, Function.comp_def] at htext
  rw [htext, textPlaces]

theorem mem_textPlaces {p : Fin raw.length} :
    p ∈ textPlaces raw ↔ ¬Text.IsBlank (raw.get p).content := by
  simp [textPlaces]

theorem firstAmong_textPlaces {p : Fin raw.length} :
    FirstAmong [] (textPlaces raw) p ↔ ¬Repeated raw p := by
  constructor
  · rintro ⟨-, hfirst⟩ ⟨q, hlt, htext, heq⟩
    exact hfirst q (mem_textPlaces.2 htext) hlt heq
  · intro h
    refine ⟨List.not_mem_nil, fun q hq hlt heq => ?_⟩
    exact h ⟨q, hlt, mem_textPlaces.1 hq, heq⟩

theorem leaders_eq_filter (raw : List RawChunk) :
    leaders raw = (textPlaces raw).filter (FirstAmong [] (textPlaces raw) ·) := by
  have hfirst : (textPlaces raw).filter (FirstAmong [] (textPlaces raw) ·) =
      (textPlaces raw).filter (¬Repeated raw ·) :=
    List.filter_congr fun p _ => decide_eq_decide.2 firstAmong_textPlaces
  rw [hfirst, textPlaces, List.filter_filter, leaders]
  apply List.filter_congr
  intro p _
  simp [Leads, and_comm]

theorem candidates_eq_leaders (raw : List RawChunk) :
    candidates raw = (leaders raw).map raw.get := by
  rw [candidates, ← map_textPlaces, firstBySpan_places [] (pairwise_textPlaces raw),
    ← leaders_eq_filter]

theorem mem_candidates_of_leads {p : Fin raw.length} (hp : Leads raw p) :
    raw.get p ∈ candidates raw := by
  rw [candidates_eq_leaders]
  exact List.mem_map_of_mem (mem_leaders.2 hp)

def orderedAt (raw : List RawChunk) (p q : Fin raw.length) : Bool :=
  ordered (raw.get p) (raw.get q)

theorem orderedAt_trans (p q r : Fin raw.length) (hpq : orderedAt raw p q)
    (hqr : orderedAt raw q r) : orderedAt raw p r :=
  ordered_trans _ _ _ hpq hqr

theorem orderedAt_total (p q : Fin raw.length) : orderedAt raw p q || orderedAt raw q p :=
  ordered_total _ _

def sortedPlaces (raw : List RawChunk) : List (Fin raw.length) :=
  (leaders raw).mergeSort (orderedAt raw)

def keptPlaces (raw : List RawChunk) : List (Fin raw.length) :=
  (sortedPlaces raw).filter fun p => outermost (candidates raw) (raw.get p)

def droppedPlaces (raw : List RawChunk) : List (Fin raw.length) :=
  (sortedPlaces raw).filter fun p => !outermost (candidates raw) (raw.get p)

theorem map_sortedPlaces (raw : List RawChunk) :
    (sortedPlaces raw).map raw.get = (candidates raw).mergeSort ordered := by
  rw [candidates_eq_leaders]
  apply List.map_mergeSort
  intro p _ q _
  rfl

theorem swept_eq_places (raw : List RawChunk) :
    swept raw = ((keptPlaces raw).map raw.get, (droppedPlaces raw).map raw.get) := by
  rw [swept_eq, ← map_sortedPlaces, List.filter_map, List.filter_map]
  rfl

theorem mem_keptPlaces {p : Fin raw.length} :
    p ∈ keptPlaces raw ↔ Leads raw p ∧ outermost (candidates raw) (raw.get p) := by
  simp [keptPlaces, sortedPlaces]

theorem mem_droppedPlaces {p : Fin raw.length} :
    p ∈ droppedPlaces raw ↔ Leads raw p ∧ ¬outermost (candidates raw) (raw.get p) := by
  simp [droppedPlaces, sortedPlaces]

theorem assemble_eq_places (raw : List RawChunk) (imports : List Import) (filePath : String)
    (language : Language) :
    assemble raw imports filePath language =
      (keptPlaces raw).mapIdx fun seq p => record language filePath imports (raw.get p) seq := by
  rw [assemble, swept_eq_places, List.mapIdx_eq_zipIdx_map, List.zipIdx_map, List.map_map]
  rfl

theorem map_lines_assemble (raw : List RawChunk) (imports : List Import) (filePath : String)
    (language : Language) :
    (assemble raw imports filePath language).map Chunk.lines =
      (swept raw).1.map RawChunk.lines := by
  calc
    (assemble raw imports filePath language).map Chunk.lines =
        ((swept raw).1.zipIdx.map Prod.fst).map RawChunk.lines := by
      rw [assemble, List.map_map, List.map_map]
      rfl
    _ = (swept raw).1.map RawChunk.lines := by rw [List.zipIdx_map_fst]

end CodeChunks.Assembly
