import CodeChunks.Json.Parser
import CodeChunks.Json.Printer
import CodeChunks.Proofs.Text.Decimal
import Mathlib.Data.List.TakeDrop

namespace CodeChunks

namespace Text

theorem isDigit_toDigits {n : Nat} {c : Char} (h : c ∈ Nat.toDigits 10 n) : c.isDigit :=
  Nat.isDigit_of_mem_toDigits (by decide) (by decide) h

theorem exists_toDigits_eq_cons (n : Nat) :
    ∃ d ds, Nat.toDigits 10 n = d :: ds ∧ d.isDigit := by
  cases h : Nat.toDigits 10 n with
  | nil => exact absurd h Nat.toDigits_ne_nil
  | cons d ds => exact ⟨d, ds, rfl, isDigit_toDigits (h ▸ List.mem_cons_self)⟩

theorem digitsValue_toDigits (n : Nat) : digitsValue 10 (Nat.toDigits 10 n) = n := by
  rw [digitsValue, foldl_digitValue? fun c hc => isDigit_toDigits hc,
    Nat.ofDigitChars_ten_toDigits]

theorem head?_toDigits_ne_zero {n : Nat} (h : n ≠ 0) : (Nat.toDigits 10 n).head? ≠ some '0' := by
  induction n using Nat.strongRecOn with
  | ind n ih =>
    rw [Nat.toDigits_eq_if (by decide)]
    split
    next hlt => simp [h]
    next hge =>
      obtain ⟨d, ds, hds, -⟩ := exists_toDigits_eq_cons (n / 10)
      have hhead := ih (n / 10) (by omega) (by omega)
      rw [hds] at hhead ⊢
      exact hhead

end Text

namespace Json

def EndsNumber (rest : List Char) : Prop :=
  ∀ c ∈ rest.head?, ¬c.isDigit ∧ c ≠ '.' ∧ c ≠ 'e' ∧ c ≠ 'E'

theorem takeWhile_isDigit {digits rest : List Char} (h : ∀ c ∈ digits, c.isDigit)
    (hrest : EndsNumber rest) : (digits ++ rest).takeWhile Char.isDigit = digits := by
  rw [List.takeWhile_append_of_pos h, List.append_right_eq_self]
  cases rest with
  | nil => rfl
  | cons c rest => exact List.takeWhile_cons_of_neg (hrest c rfl).1

theorem dropWhile_isDigit {digits rest : List Char} (h : ∀ c ∈ digits, c.isDigit)
    (hrest : EndsNumber rest) : (digits ++ rest).dropWhile Char.isDigit = rest := by
  rw [List.dropWhile_append_of_pos h]
  cases rest with
  | nil => rfl
  | cons c rest => exact List.dropWhile_cons_of_neg (hrest c rfl).1

theorem readMarked_of_ne {isMark : Char → Bool} (signs : List Char) {rest : List Char}
    (h : ∀ c ∈ rest.head?, isMark c = false) : readMarked isMark signs rest = some ([], rest) := by
  cases rest with
  | nil => rfl
  | cons c rest => simp [readMarked, h c rfl]

theorem readSign_toDigits (n : Nat) (rest : List Char) :
    readSign (Nat.toDigits 10 n ++ rest) = ([], Nat.toDigits 10 n ++ rest) := by
  obtain ⟨d, ds, hds, hd⟩ := Text.exists_toDigits_eq_cons n
  have hne : d ≠ '-' := by
    rintro rfl
    cases hd
  rw [hds, List.cons_append, readSign]
  simpa using hne

theorem readNumber_toDigits (n : Nat) {rest : List Char} (hrest : EndsNumber rest) :
    readNumber (Nat.toDigits 10 n ++ rest) = some (.nat n, rest) := by
  have hdigits : ∀ c ∈ Nat.toDigits 10 n, c.isDigit := fun c hc => Text.isDigit_toDigits hc
  have hspan : (Nat.toDigits 10 n ++ rest).span Char.isDigit = (Nat.toDigits 10 n, rest) := by
    rw [List.span_eq_takeWhile_dropWhile, takeWhile_isDigit hdigits hrest,
      dropWhile_isDigit hdigits hrest]
  have hlead : (Nat.toDigits 10 n).length = 1 ∨ (Nat.toDigits 10 n).head? ≠ some '0' := by
    by_cases h : n = 0
    · exact .inl (by rw [h]; rfl)
    · exact .inr (Text.head?_toDigits_ne_zero h)
  have hwhole : (!(Nat.toDigits 10 n).isEmpty &&
      ((Nat.toDigits 10 n).length == 1 || (Nat.toDigits 10 n).head? != some '0')) = true := by
    simp [Nat.toDigits_ne_nil, hlead]
  have hfraction : readMarked (· == '.') [] rest = some ([], rest) :=
    readMarked_of_ne [] fun c hc => by simp [(hrest c hc).2.1]
  have hexponent : readMarked (fun c => c == 'e' || c == 'E') ['+', '-'] rest = some ([], rest) :=
    readMarked_of_ne ['+', '-'] fun c hc => by simp [(hrest c hc).2.2]
  unfold readNumber
  rw [readSign_toDigits]
  dsimp only
  rw [hspan]
  dsimp only
  rw [guard, if_pos hwhole, hfraction]
  simp [hexponent, Text.digitsValue_toDigits]

theorem hexDigit_spec {n : Nat} (h : n < 16) :
    Text.isDigitIn 16 (hexDigit n) ∧ Text.digitValue? (hexDigit n) = some n := by
  revert n
  decide

theorem readHex4_escape {n : Nat} (h : n < 256) (rest : List Char) :
    readHex4 ('0' :: '0' :: hexDigit (n / 16) :: hexDigit (n % 16) :: rest) = some (n, rest) := by
  obtain ⟨hhigh, hhighValue⟩ := hexDigit_spec (n := n / 16) (by omega)
  obtain ⟨hlow, hlowValue⟩ := hexDigit_spec (n := n % 16) (by omega)
  have hzero : Text.isDigitIn 16 '0' ∧ Text.digitValue? '0' = some 0 := by decide
  simp [readHex4, Text.takeDigits?, Text.digitsValue, hhigh, hlow, hzero.1, hzero.2, hhighValue,
    hlowValue]
  omega

theorem escape_cases (c : Char) :
    (c ≠ '"' ∧ c ≠ '\\' ∧ ¬c.toNat < 32 ∧ escape c = [c]) ∨
      ∃ cs, escape c = '\\' :: cs ∧ ∀ rest, readEscape (cs ++ rest) = some (c, rest) := by
  unfold escape
  split
  case h_1 => exact .inr ⟨_, rfl, fun _ => rfl⟩
  case h_2 => exact .inr ⟨_, rfl, fun _ => rfl⟩
  case h_3 => exact .inr ⟨_, rfl, fun _ => rfl⟩
  case h_4 => exact .inr ⟨_, rfl, fun _ => rfl⟩
  case h_5 => exact .inr ⟨_, rfl, fun _ => rfl⟩
  case h_6 hquote hslash _ _ _ =>
    have hc := Char.ofNat_toNat c
    split
    next h8 =>
      rw [h8] at hc
      exact .inr ⟨_, rfl, fun rest => by rw [← hc]; rfl⟩
    next =>
      split
      next h12 =>
        rw [h12] at hc
        exact .inr ⟨_, rfl, fun rest => by rw [← hc]; rfl⟩
      next =>
        split
        next hcontrol =>
          refine .inr ⟨_, rfl, fun rest => ?_⟩
          have hhex := readHex4_escape (show c.toNat < 256 by omega) rest
          have hhigh : isHighSurrogate c.toNat = false := by simp [isHighSurrogate]; omega
          have hlow : isLowSurrogate c.toNat = false := by simp [isLowSurrogate]; omega
          simp [readEscape, readUnicode, hhex, hhigh, hlow, hc]
        next hplain => exact .inl ⟨hquote, hslash, hplain, rfl⟩

theorem readString_quote (fuel : Nat) (done rest : List Char) :
    readString fuel done ('"' :: rest) = some (String.ofList done.reverse, rest) := by
  cases fuel <;> rfl

theorem readString_escape (fuel : Nat) (done : List Char) (c : Char) (rest : List Char) :
    readString (fuel + 1) done (escape c ++ rest) = readString fuel (c :: done) rest := by
  rcases escape_cases c with ⟨hquote, hslash, hplain, hc⟩ | ⟨cs, hcs, hread⟩
  · rw [hc, List.singleton_append, readString]
    · rw [if_neg hplain]
    · simpa using hquote
    · simpa using hslash
  · rw [hcs, List.cons_append, readString]
    rw [hread rest]

theorem readString_escapes {fuel : Nat} {cs : List Char} (h : cs.length ≤ fuel)
    (done rest : List Char) :
    readString fuel done (cs.flatMap escape ++ '"' :: rest) =
      some (String.ofList (done.reverse ++ cs), rest) := by
  induction cs generalizing fuel done with
  | nil => simp [readString_quote]
  | cons c cs ih =>
    obtain ⟨fuel, rfl⟩ : ∃ f, fuel = f + 1 := ⟨fuel - 1, by simp at h; omega⟩
    rw [List.flatMap_cons, List.append_assoc, readString_escape, ih (by simpa using h)]
    simp

theorem length_le_length_flatMap_escape (cs : List Char) :
    cs.length ≤ (cs.flatMap escape).length := by
  induction cs with
  | nil => simp
  | cons c cs ih =>
    have hc : 1 ≤ (escape c).length := by
      rcases escape_cases c with ⟨-, -, -, hc⟩ | ⟨cs, hcs, -⟩
      · simp [hc]
      · simp [hcs]
    simp only [List.flatMap_cons, List.length_append, List.length_cons]
    omega

def quoteTail (s : String) : List Char := s.toList.flatMap escape ++ ['"']

theorem toList_quote (s : String) : (quote s).toList = '"' :: quoteTail s := by
  simp [quote, quoteTail]

theorem readString_quoteTail (s : String) (rest : List Char) :
    readString (quoteTail s ++ rest).length [] (quoteTail s ++ rest) = some (s, rest) := by
  have hlength := length_le_length_flatMap_escape s.toList
  have hfuel : s.toList.length ≤ (quoteTail s ++ rest).length := by
    simp only [quoteTail, List.length_append]
    omega
  rw [quoteTail, List.append_assoc, List.singleton_append] at *
  rw [readString_escapes hfuel]
  simp

end Json

end CodeChunks
