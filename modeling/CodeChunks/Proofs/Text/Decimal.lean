import CodeChunks.Proofs.Text.Slices
import CodeChunks.Text.Decimal
import Mathlib.Data.Nat.Digits.Defs

namespace CodeChunks.Text

theorem isDigit_iff {c : Char} : c.isDigit ↔ '0' ≤ c ∧ c ≤ '9' := by
  simp only [Char.isDigit, Bool.and_eq_true, decide_eq_true_eq]
  rfl

theorem toNat_of_isDigit {c : Char} (h : c.isDigit) : 48 ≤ c.toNat ∧ c.toNat ≤ 57 :=
  isDigit_iff.1 h

theorem digitValue?_of_isDigit {c : Char} (h : c.isDigit) :
    digitValue? c = some (c.toNat - '0'.toNat) :=
  if_pos (isDigit_iff.1 h)

theorem foldl_digitValue? {digits : List Char} (h : ∀ c ∈ digits, c.isDigit) (n : Nat) :
    digits.foldl (fun n c => n * 10 + (digitValue? c).getD 0) n =
      Nat.ofDigitChars 10 digits n := by
  induction digits generalizing n with
  | nil => rfl
  | cons c digits ih =>
    have hc := digitValue?_of_isDigit (h c (by simp))
    rw [List.foldl_cons, Nat.ofDigitChars_cons, ih fun d hd => h d (by simp [hd]), hc,
      Nat.mul_comm, Option.getD_some]

theorem isDigitIn_ten_iff {c : Char} : isDigitIn 10 c ↔ c.isDigit := by
  constructor
  · intro h
    by_contra hc
    -- A letter is worth ten at least.
    rw [isDigitIn, digitValue?, if_neg (mt isDigit_iff.2 hc)] at h
    split_ifs at h <;> simp at h
  · intro h
    have hrange := toNat_of_isDigit h
    have hzero : '0'.toNat = 48 := rfl
    simp only [isDigitIn, digitValue?_of_isDigit h, decide_eq_true_eq]
    omega

def numeral (digits : List Char) : Nat :=
  Nat.ofDigits 10 (digits.reverse.map fun c => c.toNat - '0'.toNat)

theorem digitsValue_eq_numeral {digits : List Char} (h : ∀ c ∈ digits, c.isDigit) :
    digitsValue 10 digits = numeral digits := by
  induction digits using List.reverseRecOn with
  | nil => rfl
  | append_singleton digits c ih =>
    have hc := digitValue?_of_isDigit (h c (by simp))
    have ih := ih fun d hd => h d (by simp [hd])
    rw [digitsValue] at ih
    rw [digitsValue, List.foldl_concat, ih, hc, Option.getD_some, numeral, numeral,
      List.reverse_concat, List.map_cons, Nat.ofDigits_cons, Nat.mul_comm, Nat.add_comm]

/-- A text that writes a number: digits, with or without a plus before them, among blanks. -/
inductive Writes : String → Nat → Prop
  | mk {before sign digits after : List Char} (hbefore : ∀ c ∈ before, isBlank c)
      (hsign : sign = [] ∨ sign = ['+']) (hne : digits ≠ []) (hdigits : ∀ c ∈ digits, c.isDigit)
      (hafter : ∀ c ∈ after, isBlank c) :
      Writes (String.ofList (before ++ (sign ++ digits) ++ after)) (numeral digits)

theorem not_isBlank_of_isDigit {c : Char} (h : c.isDigit) : ¬isBlank c := by
  have hrange := toNat_of_isDigit h
  simp only [isBlank, Bool.or_eq_true, Bool.and_eq_true, decide_eq_true_eq, beq_iff_eq]
  omega

theorem withoutPlus_append {sign digits : List Char} (hsign : sign = [] ∨ sign = ['+'])
    (hdigits : ∀ c ∈ digits, c.isDigit) : withoutPlus (sign ++ digits) = digits := by
  rcases hsign with rfl | rfl
  · rw [List.nil_append, withoutPlus]
    rintro cs rfl
    exact absurd (hdigits '+' (by simp)) (by decide)
  · rfl

theorem exists_sign (cs : List Char) :
    ∃ sign, (sign = [] ∨ sign = ['+']) ∧ cs = sign ++ withoutPlus cs := by
  unfold withoutPlus
  split
  · exact ⟨['+'], .inr rfl, rfl⟩
  · exact ⟨[], .inl rfl, rfl⟩

theorem readCount?_eq_some_iff {s : String} {n : Nat} :
    readCount? s = some n ↔ withoutPlus s.toList ≠ [] ∧ (∀ c ∈ withoutPlus s.toList, c.isDigit) ∧
      numeral (withoutPlus s.toList) = n ∧ n < 2 ^ 64 := by
  have hall : (withoutPlus s.toList).all (isDigitIn 10) ↔
      ∀ c ∈ withoutPlus s.toList, c.isDigit := by
    simp only [List.all_eq_true, isDigitIn_ten_iff]
  have hlimit : wordLimit = 2 ^ 64 := by decide
  simp only [readCount?, Option.ite_none_right_eq_some, Bool.and_eq_true, Bool.not_eq_true',
    List.isEmpty_eq_false_iff, hall, decide_eq_true_eq, hlimit, Option.some.injEq, and_assoc]
  constructor
  · rintro ⟨hne, hdigits, hlt, rfl⟩
    rw [digitsValue_eq_numeral hdigits] at hlt ⊢
    exact ⟨hne, hdigits, rfl, hlt⟩
  · rintro ⟨hne, hdigits, rfl, hlt⟩
    rw [digitsValue_eq_numeral hdigits]
    exact ⟨hne, hdigits, hlt, rfl⟩

theorem not_isBlank_of_mem {sign digits : List Char} (hsign : sign = [] ∨ sign = ['+'])
    (hdigits : ∀ c ∈ digits, c.isDigit) {c : Char} (hc : c ∈ sign ++ digits) : ¬isBlank c := by
  rcases List.mem_append.1 hc with hc | hc
  · rcases hsign with rfl | rfl
    · cases hc
    · obtain rfl := List.mem_singleton.1 hc
      decide
  · exact not_isBlank_of_isDigit (hdigits c hc)

/-- A count is read from the texts, and only those, that write one of 64 bits. -/
theorem readCount?_trim_eq_some_iff {s : String} {n : Nat} :
    readCount? (trim s) = some n ↔ Writes s n ∧ n < 2 ^ 64 := by
  rw [readCount?_eq_some_iff]
  constructor
  · rintro ⟨hne, hdigits, rfl, hlt⟩
    obtain ⟨before, after, hbefore, hafter, hs⟩ := exists_blank_around_trim s
    obtain ⟨sign, hsign, hcore⟩ := exists_sign (trim s).toList
    have hwrites := Writes.mk hbefore hsign hne hdigits hafter
    rw [← hcore, ← hs] at hwrites
    exact ⟨hwrites, hlt⟩
  · rintro ⟨⟨hbefore, hsign, hne, hdigits, hafter⟩, hlt⟩
    have hblank := fun c hc => not_isBlank_of_mem (c := c) hsign hdigits hc
    rw [trim_of_blank_around hbefore hafter (List.append_ne_nil_of_right_ne_nil _ hne)
        (fun c hc => hblank c (List.mem_of_mem_head? hc))
        (fun c hc => hblank c (List.mem_of_mem_getLast? hc)),
      String.toList_ofList, withoutPlus_append hsign hdigits]
    exact ⟨hne, hdigits, rfl, hlt⟩

end CodeChunks.Text
