import CodeChunks.Assembly

/-!
The sweep remembers a single span, yet it keeps exactly the chunks that lie strictly inside no other
chunk of the list, and for each chunk it drops it keeps one that holds it.
-/

namespace CodeChunks

namespace LineSpan

theorem strictlyContains_iff {a b : LineSpan} :
    a.strictlyContains b ↔
      a.start ≤ b.start ∧ b.stop ≤ a.stop ∧ (a.start ≠ b.start ∨ a.stop ≠ b.stop) := by
  simp [strictlyContains, and_assoc]

@[simp] theorem strictlyContains_self (a : LineSpan) : a.strictlyContains a = false := by
  simp [strictlyContains]

end LineSpan

namespace Assembly

@[simp] theorem lines_start (c : RawChunk) : c.lines.start = c.lineStart := rfl

@[simp] theorem lines_stop (c : RawChunk) : c.lines.stop = c.lineEnd := rfl

theorem ordered_iff {a b : RawChunk} :
    ordered a b ↔
      a.lineStart < b.lineStart ∨ a.lineStart = b.lineStart ∧ b.lineEnd ≤ a.lineEnd := by
  simp [ordered]

theorem ordered_trans (a b c : RawChunk) (hab : ordered a b) (hbc : ordered b c) :
    ordered a c := by
  rw [ordered_iff] at *
  omega

theorem ordered_total (a b : RawChunk) : ordered a b || ordered b a := by
  rw [Bool.or_eq_true, ordered_iff, ordered_iff]
  omega

theorem not_strictlyContains_of_ordered {a b : RawChunk} (h : ordered a b) :
    ¬b.lines.strictlyContains a.lines := by
  rw [LineSpan.strictlyContains_iff]
  rw [ordered_iff] at h
  simp only [lines_start, lines_stop]
  omega

def outermost (cs : List RawChunk) (c : RawChunk) : Bool :=
  !cs.any fun d => d.lines.strictlyContains c.lines

theorem outermost_iff {cs : List RawChunk} {c : RawChunk} :
    outermost cs c ↔ ∀ d ∈ cs, ¬d.lines.strictlyContains c.lines := by
  simp [outermost]

theorem not_outermost_iff {cs : List RawChunk} {c : RawChunk} :
    ¬outermost cs c ↔ ∃ d ∈ cs, d.lines.strictlyContains c.lines := by
  simp [outermost]

theorem outermost_congr {cs ds : List RawChunk} (h : ∀ d, d ∈ cs ↔ d ∈ ds) :
    outermost cs = outermost ds := by
  funext c
  rw [Bool.eq_iff_iff, outermost_iff, outermost_iff]
  simp [h]

theorem covered_some_iff {w s : LineSpan} :
    covered (some w) s ↔ s.stop < w.stop ∨ s.stop = w.stop ∧ w.start < s.start := by
  simp [covered]

theorem covered_iff_strictlyContains {w s : LineSpan} (h : w.start ≤ s.start) :
    covered (some w) s ↔ w.strictlyContains s := by
  rw [covered_some_iff, LineSpan.strictlyContains_iff]
  omega

/-- What the sweep knows of the chunks it has seen: the remembered span is that of a chunk it kept,
no chunk seen reaches further down, and none that reaches as far starts earlier. -/
def Remembers (seen kept : List RawChunk) : Option LineSpan → Prop
  | none => seen = []
  | some w =>
    (∃ d ∈ kept, d ∈ seen ∧ d.lines = w) ∧
      ∀ d ∈ seen, d.lineEnd < w.stop ∨ d.lineEnd = w.stop ∧ w.start ≤ d.lineStart

theorem remembers_nil : Remembers [] [] none := rfl

theorem exists_kept_of_covered {seen kept : List RawChunk} {widest : Option LineSpan}
    (h : Remembers seen kept widest) {c : RawChunk} (hs : ∀ d ∈ seen, ordered d c)
    (hc : covered widest c.lines) :
    ∃ d ∈ kept, d ∈ seen ∧ d.lines.strictlyContains c.lines := by
  cases widest with
  | none => simp [covered] at hc
  | some w =>
    obtain ⟨⟨k, hkept, hk, rfl⟩, -⟩ := h
    have hstart : k.lineStart ≤ c.lineStart := by
      have := ordered_iff.1 (hs k hk)
      omega
    exact ⟨k, hkept, hk, (covered_iff_strictlyContains hstart).1 hc⟩

theorem covered_of_strictlyContains {seen kept : List RawChunk} {widest : Option LineSpan}
    (h : Remembers seen kept widest) {c d : RawChunk} (hd : d ∈ seen)
    (hdc : d.lines.strictlyContains c.lines) : covered widest c.lines := by
  rw [LineSpan.strictlyContains_iff] at hdc
  simp only [lines_start, lines_stop] at hdc
  cases widest with
  | none =>
    cases h
    cases hd
  | some w =>
    have := h.2 d hd
    rw [covered_some_iff]
    simp only [lines_start, lines_stop]
    omega

theorem Remembers.drop {seen kept : List RawChunk} {widest : Option LineSpan}
    (h : Remembers seen kept widest) {c : RawChunk} (hc : covered widest c.lines) :
    Remembers (seen ++ [c]) kept widest := by
  cases widest with
  | none => simp [covered] at hc
  | some w =>
    obtain ⟨⟨k, hkept, hk, hkw⟩, hw⟩ := h
    rw [covered_some_iff] at hc
    refine ⟨⟨k, hkept, by simp [hk], hkw⟩, fun d hd => ?_⟩
    rcases List.mem_append.1 hd with hd | hd
    · exact hw d hd
    · rw [List.mem_singleton.1 hd]
      simp only [lines_start, lines_stop] at hc
      omega

theorem Remembers.keep {seen kept : List RawChunk} {widest : Option LineSpan}
    (h : Remembers seen kept widest) {c : RawChunk} (hc : ¬covered widest c.lines)
    (hs : ∀ d ∈ seen, ordered d c) :
    Remembers (seen ++ [c]) (kept ++ [c]) (widen widest c.lines) := by
  cases widest with
  | none =>
    cases h
    simp [widen, Remembers]
  | some w =>
    obtain ⟨⟨k, hkept, hk, rfl⟩, hw⟩ := h
    have hstart := ordered_iff.1 (hs k hk)
    rw [covered_some_iff] at hc
    simp only [lines_start, lines_stop] at hc hw
    by_cases hlt : k.lineEnd < c.lineEnd
    -- The new chunk reaches further down than anything before it.
    · simp only [widen, lines_stop, hlt, if_true]
      refine ⟨⟨c, by simp, by simp, rfl⟩, fun d hd => ?_⟩
      simp only [lines_start, lines_stop]
      rcases List.mem_append.1 hd with hd | hd
      · have := hw d hd
        omega
      · rw [List.mem_singleton.1 hd]
        omega
    -- It is not covered and reaches no further, so its span is the remembered one.
    · simp only [widen, lines_stop, hlt, if_false]
      refine ⟨⟨k, by simp [hkept], by simp [hk], rfl⟩, fun d hd => ?_⟩
      simp only [lines_start, lines_stop]
      rcases List.mem_append.1 hd with hd | hd
      · exact hw d hd
      · rw [List.mem_singleton.1 hd]
        omega

theorem covered_iff_not_outermost {seen kept cs : List RawChunk} {widest : Option LineSpan}
    {c : RawChunk} (h : Remembers seen kept widest)
    (hs : (seen ++ c :: cs).Pairwise fun a b => ordered a b) :
    covered widest c.lines ↔ ¬outermost (seen ++ c :: cs) c := by
  obtain ⟨-, hcs, hseen⟩ := List.pairwise_append.1 hs
  rw [not_outermost_iff]
  constructor
  · intro hc
    obtain ⟨d, -, hd, hdc⟩ := exists_kept_of_covered h (fun d hd => hseen d hd c (by simp)) hc
    exact ⟨d, by simp [hd], hdc⟩
  · rintro ⟨d, hd, hdc⟩
    rcases List.mem_append.1 hd with hd | hd
    · exact covered_of_strictlyContains h hd hdc
    -- A chunk holds neither itself nor one that comes before it in the order.
    · rcases List.mem_cons.1 hd with rfl | hd
      · simp at hdc
      · exact absurd hdc (not_strictlyContains_of_ordered ((List.pairwise_cons.1 hcs).1 d hd))

theorem sweep_eq_filter {seen kept : List RawChunk} {widest : Option LineSpan}
    (cs : List RawChunk) (h : Remembers seen kept widest)
    (hs : (seen ++ cs).Pairwise fun a b => ordered a b) :
    sweep widest cs =
      (cs.filter (outermost (seen ++ cs)), cs.filter fun c => !outermost (seen ++ cs) c) := by
  induction cs generalizing seen kept widest with
  | nil => rfl
  | cons c cs ih =>
    have hseen : ∀ d ∈ seen, ordered d c := fun d hd =>
      (List.pairwise_append.1 hs).2.2 d hd c (by simp)
    have hshift : seen ++ c :: cs = seen ++ [c] ++ cs := by simp
    by_cases hc : covered widest c.lines
    · have hout : outermost (seen ++ c :: cs) c = false := by
        simpa using (covered_iff_not_outermost h hs).1 hc
      have ih := ih (h.drop hc) (hshift ▸ hs)
      rw [← hshift] at ih
      simp [sweep, hc, hout, ih]
    · have hout : outermost (seen ++ c :: cs) c = true := by
        simpa using mt (covered_iff_not_outermost h hs).2 hc
      have ih := ih (h.keep hc hseen) (hshift ▸ hs)
      rw [← hshift] at ih
      simp [sweep, hc, hout, ih]

theorem exists_kept_of_mem_dropped {seen kept : List RawChunk} {widest : Option LineSpan}
    (cs : List RawChunk) (h : Remembers seen kept widest)
    (hs : (seen ++ cs).Pairwise fun a b => ordered a b) {c : RawChunk}
    (hc : c ∈ (sweep widest cs).2) :
    ∃ d ∈ kept ++ (sweep widest cs).1, d.lines.strictlyContains c.lines := by
  induction cs generalizing seen kept widest with
  | nil => simp [sweep] at hc
  | cons b cs ih =>
    have hseen : ∀ d ∈ seen, ordered d b := fun d hd =>
      (List.pairwise_append.1 hs).2.2 d hd b (by simp)
    have hshift : seen ++ b :: cs = seen ++ [b] ++ cs := by simp
    by_cases hb : covered widest b.lines
    · simp only [sweep, hb, if_true] at hc ⊢
      rcases List.mem_cons.1 hc with rfl | hc
      · obtain ⟨d, hkept, -, hdc⟩ := exists_kept_of_covered h hseen hb
        exact ⟨d, by simp [hkept], hdc⟩
      · exact ih (h.drop hb) (hshift ▸ hs) hc
    · simp only [sweep, hb, Bool.false_eq_true, if_false] at hc ⊢
      have ih := ih (h.keep hb hseen) (hshift ▸ hs) hc
      simpa using ih

theorem pairwise_mergeSort_ordered (cs : List RawChunk) :
    (cs.mergeSort ordered).Pairwise fun a b => ordered a b :=
  List.pairwise_mergeSort ordered_trans ordered_total cs

theorem swept_eq (raw : List RawChunk) :
    swept raw =
      (((candidates raw).mergeSort ordered).filter (outermost (candidates raw)),
        ((candidates raw).mergeSort ordered).filter fun c => !outermost (candidates raw) c) := by
  have hs := pairwise_mergeSort_ordered (candidates raw)
  have hmem : ∀ d, d ∈ (candidates raw).mergeSort ordered ↔ d ∈ candidates raw := fun d =>
    List.mem_mergeSort
  rw [swept, sweep_eq_filter _ remembers_nil hs, List.nil_append, outermost_congr hmem]

theorem mem_swept_fst {raw : List RawChunk} {c : RawChunk} :
    c ∈ (swept raw).1 ↔ c ∈ candidates raw ∧ outermost (candidates raw) c := by
  rw [swept_eq, List.mem_filter, List.mem_mergeSort]

theorem exists_kept_of_not_outermost {raw : List RawChunk} {c : RawChunk}
    (hc : c ∈ candidates raw) (h : ¬outermost (candidates raw) c) :
    ∃ d ∈ (swept raw).1, d.lines.strictlyContains c.lines := by
  have hdropped : c ∈ (swept raw).2 := by
    rw [swept_eq]
    simpa [hc] using h
  have hs := pairwise_mergeSort_ordered (candidates raw)
  exact exists_kept_of_mem_dropped _ remembers_nil hs hdropped

end Assembly

end CodeChunks
