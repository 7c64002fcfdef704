import CodeChunks.Proofs.OsText
import CodeChunks.Proofs.Path.Order
import Mathlib.Data.List.TakeDrop
import Mathlib.Data.List.TakeWhile

namespace CodeChunks.Path

def IsExtension (s : String) : Prop := '.' ∉ s.toList ∧ '/' ∉ s.toList

instance (s : String) : Decidable (IsExtension s) := inferInstanceAs (Decidable (_ ∧ _))

theorem dot_mem_bytes_iff (s : String) : dot ∈ Text.bytes s ↔ '.' ∈ s.toList :=
  Text.mem_bytes_iff (d := '.') (by decide) s

theorem slash_mem_bytes_iff (s : String) : slash ∈ Text.bytes s ↔ '/' ∈ s.toList :=
  Text.mem_bytes_iff (d := '/') (by decide) s

theorem bytes_dot : Text.bytes "." = [dot] := by decide

section OsText

variable {name path ext : OsText}

theorem extensionOfName?_eq_some_iff :
    extensionOfName? name = some ext ↔
      ∃ stem, stem ≠ [] ∧ name.bytes = stem ++ dot :: ext.bytes ∧ dot ∉ ext.bytes := by
  simp only [extensionOfName?, List.span_eq_takeWhile_dropWhile]
  constructor
  · intro h
    have hsplit : name.bytes.reverse.takeWhile (· ≠ dot) ++
        name.bytes.reverse.dropWhile (· ≠ dot) = name.bytes.reverse :=
      List.takeWhile_append_dropWhile
    have hdot : dot ∉ name.bytes.reverse.takeWhile (· ≠ dot) := by
      intro hmem
      simpa using List.mem_takeWhile_imp hmem
    have hhead := List.head?_dropWhile_not (· ≠ dot) name.bytes.reverse
    split at h
    next => cases h
    next => cases h
    next d e rest hrest =>
      obtain rfl := Option.some.inj h
      obtain rfl : d = dot := by
        simpa only [hrest, List.head?_cons, decide_eq_false_iff_not, not_not] using hhead
      rw [hrest] at hsplit
      refine ⟨(e :: rest).reverse, by simp, ?_, by simpa using hdot⟩
      simpa using congrArg List.reverse hsplit.symm
  · rintro ⟨stem, hstem, heq, hdot⟩
    have hpos : ∀ b ∈ ext.bytes.reverse, decide (b ≠ dot) := by
      intro b hb
      have hne : b ≠ dot := fun h => hdot (h ▸ List.mem_reverse.1 hb)
      simpa using hne
    have hreverse : name.bytes.reverse = ext.bytes.reverse ++ dot :: stem.reverse := by
      simp [heq]
    obtain ⟨e, rest, hrest⟩ := List.exists_cons_of_ne_nil (l := stem.reverse) (by simpa using hstem)
    rw [hreverse, List.takeWhile_append_of_pos hpos, List.dropWhile_append_of_pos hpos, hrest]
    simp

theorem isName_of_fileName? (h : fileName? path = some name) : IsName name := by
  unfold fileName? at h
  split at h
  next s hlast =>
    cases h
    exact isName_of_mem_components (List.mem_of_getLast? hlast)
  next => cases h

theorem fileName?_of_isName (h : IsName name) : fileName? name = some name := by
  rw [fileName?, components_of_isName h]
  rfl

end OsText

theorem isExtension_of_extension? {path : OsText} {ext : String}
    (h : extension? path = some (.ofString ext)) : IsExtension ext := by
  obtain ⟨name, hname, hext⟩ := Option.bind_eq_some_iff.1 h
  obtain ⟨stem, -, heq, hdot⟩ := extensionOfName?_eq_some_iff.1 hext
  refine ⟨fun hmem => hdot ((dot_mem_bytes_iff ext).2 hmem), ?_⟩
  intro hslash
  obtain ⟨-, -, -, hnone⟩ := isName_of_fileName? hname
  have hmem : slash ∈ (OsText.ofString ext).bytes := (slash_mem_bytes_iff ext).2 hslash
  exact hnone (by simp [heq, hmem])

section Text

variable {name ext : String}

theorem bytes_append_dot (name ext : String) :
    Text.bytes (name ++ "." ++ ext) = Text.bytes name ++ dot :: Text.bytes ext := by
  simp [bytes_dot]

theorem isName_append_dot (hname : IsName name) (hext : IsExtension ext) :
    IsName (name ++ "." ++ ext : String) := by
  obtain ⟨hempty, hdot, -, hslash⟩ := hname
  have hbytes := bytes_append_dot name ext
  obtain ⟨b, bs, hbs⟩ := List.exists_cons_of_ne_nil hempty
  have hslashes : slash ∉ Text.bytes ext := mt (slash_mem_bytes_iff ext).1 hext.2
  have hne : slash ≠ dot := by decide
  simp only [IsName, OsText.ofString] at hbs hdot hslash ⊢
  rw [hbytes, hbs]
  refine ⟨?_, ?_, ?_, ?_⟩
  · simp
  · simp
  · intro heq
    cases bs with
    | nil =>
      -- The name would be the first of the two dots.
      obtain rfl : b = dot := (List.cons.inj heq).1
      exact hdot hbs
    | cons d bs => simp at heq
  · rw [← hbs]
    simp [hslash, hslashes, hne]

theorem extension?_append_dot (hname : IsName name) (hext : IsExtension ext) :
    extension? (name ++ "." ++ ext : String) = some (.ofString ext) := by
  rw [extension?, fileName?_of_isName (isName_append_dot hname hext)]
  refine extensionOfName?_eq_some_iff.2 ⟨Text.bytes name, hname.1, bytes_append_dot name ext, ?_⟩
  exact mt (dot_mem_bytes_iff ext).1 hext.1

end Text

end CodeChunks.Path
