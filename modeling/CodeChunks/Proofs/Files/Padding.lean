import CodeChunks.Proofs.Files.Tree

namespace CodeChunks

namespace Path

variable {path : OsText}

def padded (path : OsText) (n : Nat) : OsText := ⟨path.bytes ++ List.replicate n slash⟩

theorem length_padded (path : OsText) (n : Nat) :
    (padded path n).bytes.length = path.bytes.length + n := by
  simp [padded]

theorem length_le_child (dir name : OsText) :
    dir.bytes.length + name.bytes.length ≤ (child dir name).bytes.length := by
  unfold child
  split
  · simp
  · simp only [List.length_append, List.length_cons]
    omega

theorem splitSlash_replicate (n : Nat) :
    splitSlash (List.replicate n slash) = List.replicate (n + 1) [] := by
  induction n with
  | zero => rfl
  | succ n ih => rw [List.replicate_succ, splitSlash, if_pos rfl, ih, ← List.replicate_succ]

theorem segments_padded (path : OsText) (n : Nat) :
    segments (padded path n) = segments path ++ List.replicate n ⟨[]⟩ := by
  cases n with
  | zero => simp [segments, padded]
  | succ n =>
    simp [segments, padded, List.replicate_succ, splitSlash_append, splitSlash_replicate]

theorem isAbsolute_padded (hpath : path.bytes ≠ []) (n : Nat) :
    isAbsolute (padded path n) = isAbsolute path := by
  obtain ⟨b, bs, hbs⟩ := List.exists_cons_of_ne_nil hpath
  simp [isAbsolute, padded, hbs]

theorem components_padded (hpath : path.bytes ≠ []) (n : Nat) :
    components (padded path n) = components path := by
  have hsegments : segments path ≠ [] := by simpa [segments] using splitSlash_ne_nil path.bytes
  have hhead :
      (segments path ++ List.replicate n (⟨[]⟩ : OsText)).head? = (segments path).head? := by
    obtain ⟨part, parts, hparts⟩ := List.exists_cons_of_ne_nil hsegments
    simp [hparts]
  have hrest : (List.replicate n ⟨[]⟩).filterMap Component.ofSegment? = [] := by
    simp [Component.ofSegment?]
  simp only [components, segments_padded, isAbsolute_padded hpath, List.filterMap_append, hrest,
    hhead, List.append_nil]

end Path

namespace Files

theorem Place.follow_replicate {p : Place} (hp : p.entry.isDirectory) (n : Nat) :
    p.follow (List.replicate n ⟨[]⟩) = .ok p := by
  induction n with
  | zero => rfl
  | succ n ih => simp [List.replicate_succ, Place.follow, hp, ih]

theorem Tree.locate_padded {t : Tree} {path : OsText} {p : Place} {n : Nat}
    (h : t.locate path = .ok p) (hp : p.entry.isDirectory)
    (hlimit : path.bytes.length + n ≤ pathLimit) : t.locate (Path.padded path n) = .ok p := by
  obtain ⟨hnul, hpath, -, hfollow⟩ := locate_eq_ok.1 h
  refine locate_eq_ok.2 ⟨?_, ?_, ?_, ?_⟩
  · simpa [Path.padded, Path.slash] using hnul
  · simp [Path.padded, hpath]
  · rwa [Path.length_padded]
  · have hroute : t.route (Path.padded path n) = t.route path ++ List.replicate n ⟨[]⟩ := by
      simp only [route, Path.isAbsolute_padded hpath, Path.segments_padded]
      split <;> simp
    rw [hroute, Place.follow_append, hfollow]
    exact Place.follow_replicate hp n

end Files

end CodeChunks
