import CodeChunks.Text.Lowercase

namespace CodeChunks.Text

namespace CaseRun

/-- Nothing that a member of the run is taken to is a member of the other run: it lies off the
other's range, or always between two of its members. -/
def misses (r s : CaseRun) : Bool :=
  -- Tests on numbers alone: there are tens of thousands of pairs of runs to compare.
  Nat.blt (r.lower + (r.last - r.first)) s.first || Nat.blt s.last r.lower ||
    (Nat.beq s.step 2 && (Nat.beq r.step 2 || Nat.beq r.first r.last) &&
      Nat.beq ((r.lower + s.first) % 2) 1)

def valid (r : CaseRun) : Bool :=
  r.lower + (r.last - r.first) < 0xD800 ||
    (0xDFFF < r.lower && r.lower + (r.last - r.first) < 0x110000)

variable {r s : CaseRun} {n : Nat}

theorem mem_iff : r.mem n ↔ r.first ≤ n ∧ n ≤ r.last ∧ (n - r.first) % r.step = 0 := by
  simp [mem, and_assoc]

theorem mem_apply_of_misses (h : r.misses s) (hn : r.mem n) : s.mem (r.apply n) = false := by
  simp only [misses, Bool.or_eq_true, Bool.and_eq_true, Nat.blt_eq, Nat.beq_eq] at h
  obtain ⟨hfirst, hlast, hstep⟩ := mem_iff.1 hn
  rw [Bool.eq_false_iff]
  intro happly
  obtain ⟨hfirst', hlast', hstep'⟩ := mem_iff.1 happly
  rw [apply] at hfirst' hlast' hstep'
  rcases h with (h | h) | ⟨⟨hs, hr | hr⟩, hodd⟩
  · omega
  · omega
  · rw [hr] at hstep
    rw [hs] at hstep'
    omega
  · rw [hs] at hstep'
    omega

theorem toNat_ofNat_apply (h : r.valid) (hn : r.mem n) :
    (Char.ofNat (r.apply n)).toNat = r.apply n := by
  simp only [valid, Bool.or_eq_true, Bool.and_eq_true, decide_eq_true_eq] at h
  obtain ⟨hfirst, hlast, -⟩ := mem_iff.1 hn
  have hchar : (r.apply n).isValidChar := by
    simp only [apply, Nat.isValidChar]
    omega
  rw [Char.ofNat, dif_pos hchar]
  rfl

end CaseRun

def dottedRun : CaseRun := ⟨0x130, 0x130, 1, 0x69⟩

theorem caseRuns_misses : ∀ r ∈ caseRuns, ∀ s ∈ dottedRun :: caseRuns, r.misses s := by
  have hall : caseRuns.all fun r => (dottedRun :: caseRuns).all r.misses := by decide +kernel
  simpa only [List.all_eq_true] using hall

theorem caseRuns_valid : ∀ r ∈ caseRuns, r.valid ∧ 0x41 ≤ r.first ∧ 0x41 ≤ r.lower := by
  decide +kernel

def IsLower (c : Char) : Prop := lowerChar c = [c]

instance (c : Char) : Decidable (IsLower c) := inferInstanceAs (Decidable (_ = _))

theorem isLower_of_not_mem {c : Char} (hdotted : c ≠ 'İ')
    (h : ∀ r ∈ caseRuns, r.mem c.toNat = false) : IsLower c := by
  have hfind : caseRuns.find? (·.mem c.toNat) = none := by
    rw [List.find?_eq_none]
    intro r hr
    simp [h r hr]
  rw [IsLower, lowerChar, if_neg hdotted, hfind]

theorem lowerChar_cases (c : Char) :
    (c = 'İ' ∧ lowerChar c = ['i', '\u0307']) ∨
      (∃ r ∈ caseRuns, r.mem c.toNat ∧ lowerChar c = [Char.ofNat (r.apply c.toNat)]) ∨
      (c ≠ 'İ' ∧ (∀ r ∈ caseRuns, r.mem c.toNat = false) ∧ lowerChar c = [c]) := by
  by_cases hdotted : c = 'İ'
  · exact .inl ⟨hdotted, by rw [lowerChar, if_pos hdotted]⟩
  · cases hfind : caseRuns.find? (·.mem c.toNat) with
    | some r =>
      have hmem : r.mem c.toNat := by simpa using List.find?_some hfind
      refine .inr (.inl ⟨r, List.mem_of_find?_eq_some hfind, hmem, ?_⟩)
      rw [lowerChar, if_neg hdotted, hfind]
    | none =>
      refine .inr (.inr ⟨hdotted, ?_, ?_⟩)
      · simpa using hfind
      · rw [lowerChar, if_neg hdotted, hfind]

theorem isLower_of_mem_lowerChar {c d : Char} (h : d ∈ lowerChar c) : IsLower d := by
  rcases lowerChar_cases c with ⟨-, hc⟩ | ⟨r, hr, hmem, hc⟩ | ⟨-, -, hc⟩
  · rw [hc] at h
    obtain rfl | rfl : d = 'i' ∨ d = '\u0307' := by simpa using h
    · decide +kernel
    · decide +kernel
  · obtain rfl := List.mem_singleton.1 (hc ▸ h)
    have hnat := CaseRun.toNat_ofNat_apply (caseRuns_valid r hr).1 hmem
    have hmiss (s : CaseRun) (hs : s ∈ dottedRun :: caseRuns) : s.mem (r.apply c.toNat) = false :=
      CaseRun.mem_apply_of_misses (caseRuns_misses r hr s hs) hmem
    rw [← hnat] at hmiss
    apply isLower_of_not_mem
    · intro heq
      have hdotted := hmiss dottedRun (by simp)
      rw [heq] at hdotted
      exact absurd hdotted (by decide)
    · intro s hs
      exact hmiss s (by simp [hs])
  · obtain rfl := List.mem_singleton.1 (hc ▸ h)
    exact hc

theorem IsLower.ne_capitalSigma {c : Char} (h : IsLower c) : c ≠ capitalSigma := by
  rintro rfl
  exact absurd h (by decide +kernel)

theorem lowerSigma_cases (before after : List Char) :
    lowerSigma before after = 'ς' ∨ lowerSigma before after = 'σ' := by
  rw [lowerSigma]
  split
  · exact .inl rfl
  · exact .inr rfl

theorem isLower_of_mem_lowerFrom {before cs : List Char} {d : Char} (h : d ∈ lowerFrom before cs) :
    IsLower d := by
  induction cs generalizing before with
  | nil => cases h
  | cons c cs ih =>
    rw [lowerFrom, List.mem_append] at h
    rcases h with h | h
    · split at h
      · rw [List.mem_singleton.1 h]
        rcases lowerSigma_cases before cs with hsigma | hsigma <;> rw [hsigma] <;> decide +kernel
      · exact isLower_of_mem_lowerChar h
    · exact ih h

theorem lowerFrom_of_isLower {cs : List Char} (h : ∀ c ∈ cs, IsLower c) (before : List Char) :
    lowerFrom before cs = cs := by
  induction cs generalizing before with
  | nil => rfl
  | cons c cs ih =>
    have hc : IsLower c := h c (by simp)
    rw [lowerFrom, if_neg hc.ne_capitalSigma, hc, ih fun d hd => h d (by simp [hd])]
    rfl

@[simp] theorem lowercase_lowercase (s : String) : lowercase (lowercase s) = lowercase s := by
  rw [lowercase, lowercase, String.toList_ofList, lowerFrom_of_isLower]
  intro c
  exact isLower_of_mem_lowerFrom

section BelowLetters

variable {x : Char} (hx : x.toNat < 0x41)

include hx

theorem isLower_of_lt : IsLower x := by
  apply isLower_of_not_mem
  · rintro rfl
    exact absurd hx (by decide)
  · intro r hr
    have hfirst := (caseRuns_valid r hr).2.1
    simp only [CaseRun.mem, Bool.and_eq_false_iff, decide_eq_false_iff_not]
    omega

theorem mem_lowerChar_iff (c : Char) : x ∈ lowerChar c ↔ x = c := by
  constructor
  · intro h
    rcases lowerChar_cases c with ⟨-, hc⟩ | ⟨r, hr, hmem, hc⟩ | ⟨-, -, hc⟩
    · rw [hc] at h
      obtain rfl | rfl : x = 'i' ∨ x = '\u0307' := by simpa using h
      · exact absurd hx (by decide)
      · exact absurd hx (by decide)
    · obtain rfl := List.mem_singleton.1 (hc ▸ h)
      obtain ⟨hvalid, -, hlower⟩ := caseRuns_valid r hr
      rw [CaseRun.toNat_ofNat_apply hvalid hmem, CaseRun.apply] at hx
      omega
    · exact List.mem_singleton.1 (hc ▸ h)
  · rintro rfl
    rw [show lowerChar x = [x] from isLower_of_lt hx]
    exact List.mem_singleton_self x

theorem mem_lowerFrom_iff (before cs : List Char) : x ∈ lowerFrom before cs ↔ x ∈ cs := by
  induction cs generalizing before with
  | nil => rfl
  | cons c cs ih =>
    rw [lowerFrom, List.mem_append, ih, List.mem_cons]
    refine or_congr_left ?_
    split
    next hsigma =>
      have hne : x ≠ c := by
        rintro rfl
        exact absurd (hsigma ▸ hx) (by decide)
      have hne' : x ≠ lowerSigma before cs := by
        intro heq
        rcases lowerSigma_cases before cs with h | h <;>
          exact absurd (heq.trans h ▸ hx) (by decide)
      simp [hne, hne']
    next => exact mem_lowerChar_iff hx c

theorem mem_lowercase_iff (s : String) : x ∈ (lowercase s).toList ↔ x ∈ s.toList := by
  rw [lowercase, String.toList_ofList, mem_lowerFrom_iff hx]

end BelowLetters

end CodeChunks.Text
