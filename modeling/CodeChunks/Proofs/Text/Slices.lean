import CodeChunks.Proofs.Text.Rows
import CodeChunks.Text.Blank
import Mathlib.Data.List.DropRight
import Mathlib.Data.List.Infix

namespace CodeChunks.Text

variable {s : String} {i j k : Nat}

theorem slice_append (hi : IsBoundary s i) (hj : IsBoundary s j) (hk : IsBoundary s k)
    (hij : i ≤ j) (hjk : j ≤ k) : slice s i j ++ slice s j k = slice s i k := by
  have hlength : k - i = (j - i) + (k - j) := by omega
  apply bytes_inj.1
  rw [bytes_append, bytes_slice hi hj, bytes_slice hj hk, bytes_slice hi hk, List.drop_take,
    List.drop_take, List.drop_take, hlength, List.take_add, List.drop_drop,
    Nat.add_sub_of_le hij]

theorem slice_of_le (hi : IsBoundary s i) (hj : IsBoundary s j) (h : j ≤ i) :
    slice s i j = "" := by
  apply bytes_inj.1
  rw [bytes_slice hi hj, List.drop_take, Nat.sub_eq_zero_of_le h]
  rfl

theorem slice_infix {start stop : Nat} (hstart : IsBoundary s start) (hstop : IsBoundary s stop)
    (hi : IsBoundary s i) (hj : IsBoundary s j) (hstarti : start ≤ i) (hjstop : j ≤ stop) :
    (slice s i j).toList <:+: (slice s start stop).toList := by
  rcases Nat.le_total i j with hij | hji
  · have hbefore := slice_append hstart hi hstop hstarti (hij.trans hjstop)
    have hbehind := slice_append hi hj hstop hij hjstop
    refine ⟨(slice s start i).toList, (slice s j stop).toList, ?_⟩
    rw [← hbefore, ← hbehind, String.toList_append, String.toList_append, List.append_assoc]
  · rw [slice_of_le hi hj hji]
    exact List.nil_infix

theorem isPrefix_dropEnd (p : Char → Bool) (cs : List Char) : dropEnd p cs <+: cs := by
  rw [dropEnd, ← List.reverse_suffix, List.reverse_reverse]
  exact List.dropWhile_suffix p

theorem trim_infix (t : String) : (trim t).toList <:+: t.toList := by
  rw [trim, String.toList_ofList]
  exact (isPrefix_dropEnd _ _).isInfix.trans (List.dropWhile_suffix _).isInfix

theorem dropEnd_append_of_pos {p : Char → Bool} (cs : List Char) {after : List Char}
    (h : ∀ c ∈ after, p c) : dropEnd p (cs ++ after) = dropEnd p cs := by
  rw [dropEnd, List.reverse_append, List.dropWhile_append_of_pos, dropEnd]
  intro c hc
  exact h c (List.mem_reverse.1 hc)

theorem dropEnd_of_neg {p : Char → Bool} {cs : List Char} (h : ∀ c ∈ cs.getLast?, ¬p c) :
    dropEnd p cs = cs := by
  rw [← List.head?_reverse] at h
  rw [dropEnd, List.reverse_eq_iff]
  cases hcs : cs.reverse with
  | nil => rfl
  | cons c rest => exact List.dropWhile_cons_of_neg (h c (by rw [hcs]; rfl))

theorem trim_of_blank_around {before core after : List Char} (hbefore : ∀ c ∈ before, isBlank c)
    (hafter : ∀ c ∈ after, isBlank c) (hne : core ≠ []) (hfirst : ∀ c ∈ core.head?, ¬isBlank c)
    (hlast : ∀ c ∈ core.getLast?, ¬isBlank c) :
    trim (String.ofList (before ++ core ++ after)) = String.ofList core := by
  obtain ⟨c, rest, rfl⟩ := List.exists_cons_of_ne_nil hne
  rw [trim, String.toList_ofList, List.append_assoc, List.dropWhile_append_of_pos hbefore,
    List.cons_append, List.dropWhile_cons_of_neg (hfirst c rfl), ← List.cons_append,
    dropEnd_append_of_pos _ hafter, dropEnd_of_neg hlast]

theorem exists_blank_around_trim (t : String) :
    ∃ before after, (∀ c ∈ before, isBlank c) ∧ (∀ c ∈ after, isBlank c) ∧
      t = String.ofList (before ++ (trim t).toList ++ after) := by
  have hstart := List.takeWhile_append_dropWhile (p := isBlank) (l := t.toList)
  have hstop := List.rdropWhile_append_rtakeWhile (p := isBlank) (l := t.toList.dropWhile isBlank)
  refine ⟨t.toList.takeWhile isBlank, (t.toList.dropWhile isBlank).rtakeWhile isBlank, ?_, ?_, ?_⟩
  · exact fun c hc => List.mem_takeWhile_imp hc
  · exact fun c hc => List.mem_rtakeWhile_imp hc
  · apply String.toList_injective
    rw [String.toList_ofList, trim, String.toList_ofList, List.append_assoc]
    exact hstart.symm.trans (congrArg _ hstop.symm)

theorem eq_trim_of_trimmed? {t name : String} (h : trimmed? t = some name) : name = trim t := by
  rw [trimmed?] at h
  split at h
  · cases h
  · exact (Option.some.inj h).symm

theorem trimmed?_of_ne {t : String} (h : trim t ≠ "") : trimmed? t = some (trim t) := if_neg h

end CodeChunks.Text
