import CodeChunks.OsText

namespace CodeChunks

namespace Text

theorem mem_utf8EncodeChar_iff {c d : Char} (hd : d.toNat < 128) :
    d.toNat.toUInt8 ∈ String.utf8EncodeChar c ↔ c = d := by
  have hbyte (n : Nat) : d.toNat.toUInt8 = UInt8.ofNat n ↔ d.toNat = n % 256 := by
    rw [← UInt8.toNat_inj, Nat.toUInt8_eq, UInt8.toNat_ofNat', UInt8.toNat_ofNat']
    omega
  have hchar : c = d ↔ c.toNat = d.toNat := Char.toNat_inj.symm
  have hval : c.val.toNat = c.toNat := rfl
  rw [String.utf8EncodeChar.eq_1, hval, hchar]
  split
  · rw [List.mem_singleton, hbyte]
    omega
  · split
    · simp only [List.mem_cons, List.not_mem_nil, or_false, hbyte]
      omega
    · split
      · simp only [List.mem_cons, List.not_mem_nil, or_false, hbyte]
        omega
      · simp only [List.mem_cons, List.not_mem_nil, or_false, hbyte]
        omega

theorem mem_bytes_iff {d : Char} (hd : d.toNat < 128) (s : String) :
    d.toNat.toUInt8 ∈ bytes s ↔ d ∈ s.toList := by
  simp [bytes_eq_flatMap, mem_utf8EncodeChar_iff hd]

end Text

namespace OsText

theorem text?_eq_some_iff {t : OsText} {s : String} : t.text? = some s ↔ t = ofString s := by
  obtain ⟨bs⟩ := t
  have hbytes : (⟨bs.toArray⟩ : ByteArray) = s.toByteArray ↔ bs = Text.bytes s := by
    rw [ByteArray.ext_iff, Text.bytes, ← Array.toList_inj]
  rw [text?, String.fromUTF8?, Option.dite_none_right_eq_some, ofString, mk.injEq, ← hbytes]
  constructor
  · rintro ⟨hvalid, h⟩
    rw [← Option.some.inj h]
    rfl
  · intro h
    have hvalid : (⟨bs.toArray⟩ : ByteArray).IsValidUTF8 := h ▸ s.isValidUTF8
    exact ⟨hvalid, congrArg some (String.toByteArray_inj.1 h)⟩

@[simp] theorem text?_ofString (s : String) : (ofString s).text? = some s :=
  text?_eq_some_iff.2 rfl

theorem bind_text?_eq_some_iff {o : Option OsText} {s : String} :
    o.bind text? = some s ↔ o = some (ofString s) := by
  simp [Option.bind_eq_some_iff, text?_eq_some_iff]

theorem bind_text?_eq_none_iff {o : Option OsText} :
    o.bind text? = none ↔ ∀ s, o ≠ some (ofString s) := by
  simp only [Option.eq_none_iff_forall_ne_some, ne_eq, bind_text?_eq_some_iff]

theorem lossyChars_append {skip : Nat} {skipped : List UInt8} (h : skipped.length = skip)
    (bs : List UInt8) : lossyChars skip (skipped ++ bs) = lossyChars 0 bs := by
  induction skip generalizing skipped with
  | zero => rw [List.length_eq_zero_iff.1 h, List.nil_append]
  | succ skip ih =>
    obtain ⟨b, skipped, rfl⟩ := List.exists_cons_of_length_eq_add_one h
    rw [List.cons_append, lossyChars]
    exact ih (by simpa using h)

theorem headChar?_append (c : Char) (bs : List UInt8) :
    headChar? (String.utf8EncodeChar c ++ bs) = some c := by
  have hlength : (String.utf8EncodeChar c).length ≤ 4 := by
    rw [String.length_utf8EncodeChar]
    exact c.utf8Size_le_four
  rw [headChar?, List.take_append, List.take_of_length_le hlength, List.toByteArray_append,
    ← List.utf8Encode_singleton]
  exact List.utf8DecodeChar?_utf8Encode_singleton_append

theorem lossyChars_flatMap (cs : List Char) :
    lossyChars 0 (cs.flatMap String.utf8EncodeChar) = cs := by
  induction cs with
  | nil => rfl
  | cons c cs ih =>
    have hlength := String.length_utf8EncodeChar c
    have hhead := headChar?_append c (cs.flatMap String.utf8EncodeChar)
    rw [List.flatMap_cons]
    cases hc : String.utf8EncodeChar c with
    | nil =>
      rw [hc] at hlength
      exact absurd hlength (Nat.ne_of_lt c.utf8Size_pos)
    | cons b bs =>
      rw [hc, List.length_cons] at hlength
      rw [hc, List.cons_append] at hhead
      rw [List.cons_append, lossyChars, hhead]
      simp only
      rw [lossyChars_append (by omega), ih]

@[simp] theorem display_ofString (s : String) : (ofString s).display = s := by
  rw [display, ofString, Text.bytes_eq_flatMap, lossyChars_flatMap, String.ofList_toList]

end OsText

end CodeChunks
