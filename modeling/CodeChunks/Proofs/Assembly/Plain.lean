import CodeChunks.Proofs.Assembly.Containment
import Mathlib.Data.List.TakeWhile

namespace CodeChunks

namespace Text

theorem trim_eq_empty_iff {s : String} : trim s = "" ↔ IsBlank s := by
  rw [trim, String.ofList_eq_empty_iff, dropEnd, List.reverse_eq_nil_iff,
    List.dropWhile_eq_nil_iff, IsBlank]
  simp only [List.mem_reverse]
  constructor
  · intro h c hc
    -- What is cut off at the front is blank as well.
    rw [← List.takeWhile_append_dropWhile (p := isBlank) (l := s.toList)] at hc
    rcases List.mem_append.1 hc with hc | hc
    · exact List.mem_takeWhile_imp hc
    · exact h c hc
  · intro h c hc
    exact h c ((List.dropWhile_sublist isBlank).subset hc)

end Text

namespace Assembly

def distinct (raw : List RawChunk) : List RawChunk :=
  (raw.filter fun c => Text.trim c.content ≠ "").eraseDupsBy fun a b => byteSpan a == byteSpan b

def startsNoLater (a b : RawChunk) : Bool := a.lineStart ≤ b.lineStart

def plainKept (raw : List RawChunk) : List RawChunk :=
  let sorted := (distinct raw).mergeSort startsNoLater
  sorted.filter fun c => !sorted.any fun d => d.lines.strictlyContains c.lines

/-- The chunks that are kept, numbered from zero, each with the imports of the file. -/
def plain (raw : List RawChunk) (imports : List Import) (filePath : String)
    (language : Language) : List Chunk :=
  (plainKept raw).mapIdx fun seq c =>
    { id := "_".intercalate
        [language.name, c.type.name, c.name, Path.baseName filePath, toString seq]
      content := c.content
      metadata :=
        { filePath := filePath, language := language, type := c.type, name := c.name,
          lineStart := c.lineStart, lineEnd := c.lineEnd, imports := imports,
          details := c.details } }

theorem firstBySpan_eq_eraseDupsBy (seen : List (Nat × Nat)) (cs : List RawChunk) :
    firstBySpan seen cs =
      (cs.filter fun c => byteSpan c ∉ seen).eraseDupsBy fun a b => byteSpan a == byteSpan b := by
  induction cs generalizing seen with
  | nil => rfl
  | cons c cs ih =>
    by_cases hc : byteSpan c ∈ seen
    · simp [firstBySpan, hc, ih]
    · simp only [firstBySpan, hc, if_false, ih, not_false_eq_true, decide_true,
        List.filter_cons_of_pos, List.eraseDupsBy_cons, List.filter_filter]
      congr 3
      funext d
      by_cases hd : byteSpan d = byteSpan c <;> simp [hd]

theorem candidates_eq_distinct (raw : List RawChunk) : candidates raw = distinct raw := by
  rw [candidates, distinct, firstBySpan_eq_eraseDupsBy]
  simp [Text.trim_eq_empty_iff]

section StableSort

variable {α : Type} {le : α → α → Bool}

theorem append_inj_of_split {a : α} {l₁ l₂ m₁ m₂ : List α} (h : l₁ ++ l₂ = m₁ ++ m₂)
    (hl₁ : ∀ b ∈ l₁, !le a b) (hl₂ : ∀ b ∈ l₂, le a b) (hm₁ : ∀ b ∈ m₁, !le a b)
    (hm₂ : ∀ b ∈ m₂, le a b) : l₁ = m₁ ∧ l₂ = m₂ := by
  induction l₁ generalizing m₁ with
  | nil =>
    cases m₁ with
    | nil => exact ⟨rfl, h⟩
    | cons c m₁ =>
      have hc := hl₂ c (by simp [show l₂ = c :: m₁ ++ m₂ from h])
      simp [hc] at hm₁
  | cons b l₁ ih =>
    cases m₁ with
    | nil =>
      have hb := hm₂ b (by simp [show m₂ = b :: l₁ ++ l₂ from h.symm])
      simp [hb] at hl₁
    | cons c m₁ =>
      simp only [List.cons_append, List.cons.injEq] at h
      obtain ⟨rfl, h⟩ := h
      obtain ⟨rfl, rfl⟩ := ih h (fun x hx => hl₁ x (by simp [hx])) fun x hx => hm₁ x (by simp [hx])
      exact ⟨rfl, rfl⟩

variable (trans : ∀ a b c, le a b → le b c → le a c) (total : ∀ a b, le a b || le b a)

include trans total

theorem exists_split_mergeSort_cons (a : α) (l : List α) :
    ∃ l₁ l₂, (a :: l).mergeSort le = l₁ ++ a :: l₂ ∧ l.mergeSort le = l₁ ++ l₂ ∧
      (∀ b ∈ l₁, !le a b) ∧ ∀ b ∈ l₂, le a b := by
  obtain ⟨l₁, l₂, hcons, hl, hbefore⟩ := List.mergeSort_cons trans total a l
  have hsorted := List.pairwise_mergeSort trans total (a :: l)
  rw [hcons] at hsorted
  have hafter := (List.pairwise_cons.1 (List.pairwise_append.1 hsorted).2.1).1
  exact ⟨l₁, l₂, hcons, hl, hbefore, hafter⟩

theorem filter_mergeSort (p : α → Bool) (l : List α) :
    (l.mergeSort le).filter p = (l.filter p).mergeSort le := by
  induction l with
  | nil => simp
  | cons a l ih =>
    obtain ⟨l₁, l₂, hcons, hl, hbefore, hafter⟩ := exists_split_mergeSort_cons trans total a l
    rw [hl, List.filter_append] at ih
    by_cases ha : p a
    · obtain ⟨m₁, m₂, hcons', hm, hbefore', hafter'⟩ :=
        exists_split_mergeSort_cons trans total a (l.filter p)
      obtain ⟨rfl, rfl⟩ := append_inj_of_split (hm.symm.trans ih.symm) hbefore' hafter'
        (fun b hb => hbefore b ((List.mem_filter.1 hb).1))
        fun b hb => hafter b ((List.mem_filter.1 hb).1)
      simp [hcons, ha, hcons']
    · simp [hcons, ha, ih]

end StableSort

theorem startsNoLater_trans (a b c : RawChunk) (hab : startsNoLater a b)
    (hbc : startsNoLater b c) : startsNoLater a c := by
  simp only [startsNoLater, decide_eq_true_eq] at *
  omega

theorem startsNoLater_total (a b : RawChunk) : startsNoLater a b || startsNoLater b a := by
  simp only [startsNoLater, Bool.or_eq_true, decide_eq_true_eq]
  omega

theorem ordered_eq_startsNoLater {cs : List RawChunk} {a b : RawChunk} (ha : a ∈ cs) (hb : b ∈ cs)
    (houtA : outermost cs a) (houtB : outermost cs b) : ordered a b = startsNoLater a b := by
  have hab := outermost_iff.1 houtB a ha
  have hba := outermost_iff.1 houtA b hb
  rw [LineSpan.strictlyContains_iff] at hab hba
  rw [Bool.eq_iff_iff, ordered_iff, startsNoLater, decide_eq_true_eq]
  simp only [lines_start, lines_stop] at hab hba
  omega

theorem filter_outermost_mergeSort (cs : List RawChunk) :
    (cs.mergeSort ordered).filter (outermost cs) =
      (cs.mergeSort startsNoLater).filter (outermost cs) := by
  rw [filter_mergeSort ordered_trans ordered_total,
    filter_mergeSort startsNoLater_trans startsNoLater_total]
  have hle : ∀ a ∈ cs.filter (outermost cs), ∀ b ∈ cs.filter (outermost cs),
      ordered a b = startsNoLater (id a) (id b) := by
    intro a ha b hb
    rw [List.mem_filter] at ha hb
    exact ordered_eq_startsNoLater ha.1 hb.1 ha.2 hb.2
  simpa using List.map_mergeSort hle

theorem swept_fst_eq_plainKept (raw : List RawChunk) : (swept raw).1 = plainKept raw := by
  have hmem : ∀ d, d ∈ (distinct raw).mergeSort startsNoLater ↔ d ∈ distinct raw := fun d =>
    List.mem_mergeSort
  calc
    (swept raw).1 = ((distinct raw).mergeSort ordered).filter (outermost (distinct raw)) := by
      rw [swept_eq, candidates_eq_distinct]
    _ = ((distinct raw).mergeSort startsNoLater).filter (outermost (distinct raw)) :=
      filter_outermost_mergeSort (distinct raw)
    _ = plainKept raw := by
      rw [← outermost_congr hmem]
      rfl

theorem chunkId_eq_intercalate (language : Language) (filePath : String) (c : RawChunk)
    (seq : Nat) :
    chunkId language filePath c seq = "_".intercalate
      [language.name, c.type.name, c.name, Path.baseName filePath, toString seq] :=
  rfl

/-- The assembly yields the records of the plain rules. -/
theorem assemble_eq_plain (raw : List RawChunk) (imports : List Import) (filePath : String)
    (language : Language) :
    assemble raw imports filePath language = plain raw imports filePath language := by
  rw [assemble, swept_fst_eq_plainKept, plain, List.mapIdx_eq_zipIdx_map]
  refine List.map_congr_left ?_
  rintro ⟨c, seq⟩ -
  simp only [record, chunkId_eq_intercalate]

end Assembly

end CodeChunks
