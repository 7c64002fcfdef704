import CodeChunks.Text.Lines

namespace CodeChunks.Text

def IsBoundary (s : String) (offset : Nat) : Prop := (s.pos? ⟨offset⟩).isSome

instance (s : String) (offset : Nat) : Decidable (IsBoundary s offset) :=
  inferInstanceAs (Decidable ((s.pos? ⟨offset⟩).isSome = true))

theorem length_bytes (s : String) : (bytes s).length = s.utf8ByteSize := by
  simp [bytes]

theorem byteIdx_of_pos? {s : String} {offset : Nat} {p : s.Pos} (h : s.pos? ⟨offset⟩ = some p) :
    p.offset.byteIdx = offset := by
  simp only [String.pos?, String.Slice.pos?, Option.map_eq_some_iff] at h
  obtain ⟨q, hq, rfl⟩ := h
  split at hq
  · cases hq
    rfl
  · cases hq

theorem IsBoundary.le_length {s : String} {offset : Nat} (h : IsBoundary s offset) :
    offset ≤ (bytes s).length := by
  obtain ⟨p, hp⟩ := Option.isSome_iff_exists.1 h
  rw [length_bytes, ← byteIdx_of_pos? hp]
  exact p.isValid.le_utf8ByteSize

theorem slice_self (s : String) (offset : Nat) : slice s offset offset = "" := by
  rw [slice]
  cases s.pos? ⟨offset⟩ with
  | none => rfl
  | some p =>
    apply String.toByteArray_inj.1
    simp

theorem row_mono (s : String) {i j : Nat} (h : i ≤ j) : row s i ≤ row s j :=
  (List.take_prefix_take_left h).sublist.count_le newline

theorem row_succ {s : String} {i : Nat} (h : i < (bytes s).length) :
    row s (i + 1) = row s i + if (bytes s)[i] = newline then 1 else 0 := by
  rw [row, ← List.take_append_getElem h, List.count_append, List.count_singleton, row]
  simp

theorem column_succ_eq_zero_iff {s : String} {i : Nat} (h : i < (bytes s).length) :
    column s (i + 1) = 0 ↔ (bytes s)[i] = newline := by
  rw [column, ← List.take_append_getElem h, List.reverse_append, List.reverse_singleton,
    List.singleton_append]
  by_cases hi : (bytes s)[i] = newline <;> simp [hi]

theorem bytes_slice {s : String} {start stop : Nat} (hstart : IsBoundary s start)
    (hstop : IsBoundary s stop) :
    bytes (slice s start stop) = ((bytes s).take stop).drop start := by
  obtain ⟨p, hp⟩ := Option.isSome_iff_exists.1 hstart
  obtain ⟨q, hq⟩ := Option.isSome_iff_exists.1 hstop
  rw [slice, hp, hq, List.drop_take]
  simp [bytes, byteIdx_of_pos? hp, byteIdx_of_pos? hq]

theorem row_add_row_slice {s : String} {start stop i : Nat} (hstart : IsBoundary s start)
    (hstop : IsBoundary s stop) (hi : start + i ≤ stop) :
    row s start + row (slice s start stop) i = row s (start + i) := by
  rw [row, row, row, bytes_slice hstart hstop, List.take_add, List.count_append, List.drop_take,
    List.take_take, Nat.min_eq_left (by omega)]

theorem lineCount_eq_row {s : String} (h : 0 < (bytes s).length) :
    lineCount s = row s ((bytes s).length - 1) + 1 := by
  have hlast : (bytes s).getLast? = some (bytes s)[(bytes s).length - 1] := by
    rw [List.getLast?_eq_getElem?, List.getElem?_eq_getElem]
  have hrow := row_succ (s := s) (show (bytes s).length - 1 < (bytes s).length by omega)
  have hall : row s (bytes s).length = (bytes s).count newline := by rw [row, List.take_length]
  rw [Nat.sub_add_cancel h, hall] at hrow
  rw [lineCount, hlast]
  simp only [hrow]
  split <;> omega

theorem length_bytes_slice {s : String} {start stop : Nat} (hstart : IsBoundary s start)
    (hstop : IsBoundary s stop) : (bytes (slice s start stop)).length = stop - start := by
  have hle := hstop.le_length
  rw [bytes_slice hstart hstop, List.length_drop, List.length_take, Nat.min_eq_left hle]

theorem row_add_lineCount_slice {s : String} {start stop : Nat} (hstart : IsBoundary s start)
    (hstop : IsBoundary s stop) (h : start < stop) :
    row s start + lineCount (slice s start stop) = row s (stop - 1) + 1 := by
  have hlength := length_bytes_slice hstart hstop
  have hrow := row_add_row_slice hstart hstop (i := stop - start - 1) (by omega)
  rw [lineCount_eq_row (by omega), hlength, ← Nat.add_assoc, hrow]
  congr 2
  omega

theorem row_lt_lineCount {s : String} {offset : Nat} (h : offset < (bytes s).length) :
    row s offset < lineCount s := by
  have hmono := row_mono s (show offset ≤ (bytes s).length - 1 by omega)
  rw [lineCount_eq_row (by omega)]
  omega

end CodeChunks.Text
