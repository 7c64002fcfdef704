import CodeChunks.Batch.Limit
import CodeChunks.Proofs.Text.Decimal

namespace CodeChunks.Batch

/-- Who asks for a number of files, and for which. -/
inductive Asked (configured : Option Nat) (setting : Option String) (processors : Nat) :
    Nat → Prop
  | configured {n : Nat} (h : configured = some n) : Asked configured setting processors n
  | setting {s : String} {n : Nat} (hnone : configured = none) (hsetting : setting = some s)
      (hwrites : Text.Writes s n) (hfits : n < 2 ^ 64) : Asked configured setting processors n
  | processors (hnone : configured = none)
      (hunread : ∀ s n, setting = some s → Text.Writes s n → 2 ^ 64 ≤ n) :
      Asked configured setting processors processors

variable {configured : Option Nat} {setting : Option String} {processors n : Nat}

theorem one_le_clamp (n : Nat) : 1 ≤ clamp n := Nat.le_max_left 1 _

theorem clamp_le (n : Nat) : clamp n ≤ 32 :=
  Nat.max_le.2 ⟨by decide, Nat.min_le_right n _⟩

theorem clamp_clamp (n : Nat) : clamp (clamp n) = clamp n := by
  simp only [clamp, maxConcurrency]
  omega

theorem readSetting_eq_some_iff :
    (setting.bind fun s => Text.readCount? (Text.trim s)) = some n ↔
      ∃ s, setting = some s ∧ Text.Writes s n ∧ n < 2 ^ 64 := by
  simp only [Option.bind_eq_some_iff, Text.readCount?_trim_eq_some_iff]

theorem readSetting_eq_none_iff :
    (setting.bind fun s => Text.readCount? (Text.trim s)) = none ↔
      ∀ s n, setting = some s → Text.Writes s n → 2 ^ 64 ≤ n := by
  rw [Option.eq_none_iff_forall_ne_some]
  simp only [ne_eq, readSetting_eq_some_iff, not_exists, not_and, Nat.not_lt]
  exact forall_comm

theorem Asked.concurrency_eq (h : Asked configured setting processors n) :
    concurrency configured setting processors = clamp n := by
  cases h with
  | configured h => rw [h, concurrency]
  | setting hnone hsetting hwrites hfits =>
    rw [hnone, concurrency, readSetting_eq_some_iff.2 ⟨_, hsetting, hwrites, hfits⟩,
      Option.getD_some]
  | processors hnone hunread =>
    rw [hnone, concurrency, readSetting_eq_none_iff.2 hunread, Option.getD_none, clamp_clamp]

theorem exists_asked (configured : Option Nat) (setting : Option String) (processors : Nat) :
    ∃ n, Asked configured setting processors n := by
  cases hconfigured : configured with
  | some n => exact ⟨n, .configured rfl⟩
  | none =>
    cases hread : setting.bind fun s => Text.readCount? (Text.trim s) with
    | some n =>
      obtain ⟨s, hsetting, hwrites, hfits⟩ := readSetting_eq_some_iff.1 hread
      exact ⟨n, .setting rfl hsetting hwrites hfits⟩
    | none => exact ⟨processors, .processors rfl (readSetting_eq_none_iff.1 hread)⟩

/-- The number of files at once is the one asked for, brought between one and 32. -/
theorem concurrency_asked (configured : Option Nat) (setting : Option String) (processors : Nat) :
    (∃ n, Asked configured setting processors n) ∧
      (∀ n, Asked configured setting processors n →
        concurrency configured setting processors = max 1 (min n 32)) ∧
      1 ≤ concurrency configured setting processors ∧
      concurrency configured setting processors ≤ 32 := by
  obtain ⟨n, hasked⟩ := exists_asked configured setting processors
  refine ⟨⟨n, hasked⟩, fun m h => h.concurrency_eq, ?_, ?_⟩
  · rw [hasked.concurrency_eq]
    exact one_le_clamp n
  · rw [hasked.concurrency_eq]
    exact clamp_le n

theorem concurrency_asked_padded :
    Asked none (some "\t+0040 ") 4 40 ∧ concurrency none (some "\t+0040 ") 4 = 32 ∧
      Asked none (some "18446744073709551616") 4 4 ∧
      concurrency none (some "18446744073709551616") 4 = 4 := by
  have hwrites : Text.Writes "\t+0040 " 40 :=
    @Text.Writes.mk ['\t'] ['+'] ['0', '0', '4', '0'] [' '] (by simp [Text.isBlank]) (.inr rfl)
      (by simp) (by simp [Char.isDigit]) (by simp [Text.isBlank])
  have hpadded : Asked none (some "\t+0040 ") 4 40 := .setting rfl rfl hwrites (by decide)
  have hlong : Asked none (some "18446744073709551616") 4 4 :=
    .processors rfl (readSetting_eq_none_iff.1 (by decide +kernel))
  exact ⟨hpadded, (concurrency_asked none _ 4).2.1 40 hpadded, hlong,
    (concurrency_asked none _ 4).2.1 4 hlong⟩

end CodeChunks.Batch
