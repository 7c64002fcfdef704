import CodeChunks.Assembly
import Mathlib.Data.List.Nodup

namespace CodeChunks

namespace Text

def afterLast (mark : Char) : List Char → Option (List Char)
  | [] => none
  | c :: cs => (afterLast mark cs).or (if c = mark then some cs else none)

def afterLast? (mark : Char) (s : String) : Option String :=
  (afterLast mark s.toList).map String.ofList

theorem afterLast_eq_none {mark : Char} {cs : List Char} (h : mark ∉ cs) :
    afterLast mark cs = none := by
  induction cs with
  | nil => rfl
  | cons c cs ih =>
    obtain ⟨hne, hcs⟩ : ¬mark = c ∧ mark ∉ cs := by simpa using h
    rw [afterLast, ih hcs, if_neg (Ne.symm hne), Option.none_or]

theorem afterLast_append {mark : Char} (before : List Char) {after : List Char}
    (h : mark ∉ after) : afterLast mark (before ++ mark :: after) = some after := by
  induction before with
  | nil => rw [List.nil_append, afterLast, afterLast_eq_none h, if_pos rfl, Option.none_or]
  | cons c before ih => rw [List.cons_append, afterLast, ih, Option.some_or]

theorem afterLast?_append {mark : Char} (before : String) {after : String}
    (h : mark ∉ after.toList) :
    afterLast? mark (before ++ String.singleton mark ++ after) = some after := by
  have hsplit : (before ++ String.singleton mark ++ after).toList =
      before.toList ++ mark :: after.toList := by simp
  rw [afterLast?, hsplit, afterLast_append before.toList h, Option.map_some, String.ofList_toList]

theorem isDigit_of_mem_toString {n : Nat} {c : Char} (h : c ∈ (toString n).toList) :
    c.isDigit := by
  rw [Nat.toString_eq_ofList_toDigits, String.toList_ofList] at h
  exact Nat.isDigit_of_mem_toDigits (by decide) (Nat.le_refl 10) h

theorem eq_of_toString_eq {m n : Nat} (h : toString m = toString n) : m = n := by
  rw [Nat.toString_eq_ofList_toDigits, Nat.toString_eq_ofList_toDigits, String.ofList_inj] at h
  have hvalue := congrArg (fun ds => Nat.ofDigitChars 10 ds 0) h
  simpa only [Nat.ofDigitChars_ten_toDigits] using hvalue

end Text

namespace Assembly

theorem afterLast?_chunkId (language : Language) (filePath : String) (c : RawChunk) (seq : Nat) :
    Text.afterLast? '_' (chunkId language filePath c seq) = some (toString seq) := by
  apply Text.afterLast?_append
  intro hmem
  exact absurd (Text.isDigit_of_mem_toString hmem) (by decide)

theorem map_afterLast?_id (raw : List RawChunk) (imports : List Import) (filePath : String)
    (language : Language) :
    (assemble raw imports filePath language).map (fun c => Text.afterLast? '_' c.id) =
      (List.range (assemble raw imports filePath language).length).map
        fun seq => some (toString seq) := by
  have hid : ∀ x : RawChunk × Nat,
      Text.afterLast? '_' (record language filePath imports x.1 x.2).id = some (toString x.2) :=
    fun x => afterLast?_chunkId language filePath x.1 x.2
  simp only [assemble, List.map_map, Function.comp_def, hid, List.length_map, List.length_zipIdx]
  rw [List.range_eq_range', ← List.zipIdx_map_snd 0 (swept raw).1, List.map_map]
  rfl

/-- The number after the last underscore of an id is the place of its record, whatever the names
before it look like, and so the ids of a file are distinct. -/
theorem assemble_ids_numbered (raw : List RawChunk) (imports : List Import) (filePath : String)
    (language : Language) :
    ((assemble raw imports filePath language).map Chunk.id).Nodup ∧
      (assemble raw imports filePath language).map (fun c => Text.afterLast? '_' c.id) =
        (List.range (assemble raw imports filePath language).length).map
          fun seq => some (toString seq) := by
  have hnumbers := map_afterLast?_id raw imports filePath language
  refine ⟨?_, hnumbers⟩
  have hdistinct : ((List.range (assemble raw imports filePath language).length).map
      fun seq => some (toString seq)).Nodup := by
    refine List.nodup_range.map fun i j hij => ?_
    exact Text.eq_of_toString_eq (Option.some.inj hij)
  rw [← hnumbers] at hdistinct
  refine List.Nodup.of_map (Text.afterLast? '_') ?_
  rwa [List.map_map]

end Assembly

end CodeChunks
