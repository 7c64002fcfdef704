namespace CodeChunks.Text

def newline : UInt8 := 10

def bytes (s : String) : List UInt8 := s.toByteArray.data.toList

theorem bytes_inj {s t : String} : bytes s = bytes t ↔ s = t := by
  rw [bytes, bytes, Array.toList_inj, ← ByteArray.ext_iff, String.toByteArray_inj]

@[simp] theorem bytes_append (s t : String) : bytes (s ++ t) = bytes s ++ bytes t := by
  simp [bytes]

theorem bytes_eq_flatMap (s : String) : bytes s = s.toList.flatMap String.utf8EncodeChar := by
  rw [bytes, ← String.utf8Encode_toList, List.utf8Encode, List.data_toByteArray]

/-- The text between two byte offsets, empty when an offset lies outside the text or inside a
character. -/
def slice (s : String) (start stop : Nat) : String :=
  match s.pos? ⟨start⟩, s.pos? ⟨stop⟩ with
  | some p, some q => s.extract p q
  | _, _ => ""

def row (s : String) (offset : Nat) : Nat :=
  ((bytes s).take offset).count newline

def column (s : String) (offset : Nat) : Nat :=
  (((bytes s).take offset).reverse.takeWhile (· ≠ newline)).length

structure Point where
  row : Nat
  column : Nat
  deriving DecidableEq, Repr

def Point.next (p : Point) (b : UInt8) : Point :=
  if b = newline then ⟨p.row + 1, 0⟩ else ⟨p.row, p.column + 1⟩

def point (s : String) (offset : Nat) : Point := ⟨row s offset, column s offset⟩

/-- The number of lines; a line break at the very end opens no further line. -/
def lineCount (s : String) : Nat :=
  let bs := bytes s
  match bs.getLast? with
  | none => 0
  | some b => bs.count newline + if b = newline then 0 else 1

end CodeChunks.Text
