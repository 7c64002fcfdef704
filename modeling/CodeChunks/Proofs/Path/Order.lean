import CodeChunks.Path

namespace CodeChunks.Path

theorem splitSlash_ne_nil (bs : List UInt8) : splitSlash bs ≠ [] := by
  cases bs with
  | nil => simp [splitSlash]
  | cons b bs =>
    rw [splitSlash]
    split
    · simp
    · split <;> simp

theorem splitSlash_append (xs ys : List UInt8) :
    splitSlash (xs ++ slash :: ys) = splitSlash xs ++ splitSlash ys := by
  induction xs with
  | nil => simp [splitSlash]
  | cons b xs ih =>
    by_cases hb : b = slash
    · simp [splitSlash, hb, ih]
    · cases hxs : splitSlash xs with
      | nil => exact absurd hxs (splitSlash_ne_nil xs)
      | cons part parts => simp [splitSlash, hb, ih, hxs]

theorem splitSlash_of_not_mem {bs : List UInt8} (h : slash ∉ bs) : splitSlash bs = [bs] := by
  induction bs with
  | nil => rfl
  | cons b bs ih =>
    simp only [List.mem_cons, not_or] at h
    rw [splitSlash, if_neg (Ne.symm h.1), ih h.2]

theorem not_mem_of_mem_splitSlash {bs part : List UInt8} (h : part ∈ splitSlash bs) :
    slash ∉ part := by
  induction bs generalizing part with
  | nil =>
    obtain rfl : part = [] := by simpa [splitSlash] using h
    simp
  | cons b bs ih =>
    by_cases hb : b = slash
    · simp only [splitSlash, hb, if_true, List.mem_cons] at h
      rcases h with rfl | h
      · simp
      · exact ih h
    · cases hbs : splitSlash bs with
      | nil => exact absurd hbs (splitSlash_ne_nil bs)
      | cons first parts =>
        simp only [splitSlash, hb, if_false, hbs, List.mem_cons] at h
        rcases h with rfl | h
        · simp [Ne.symm hb, ih (show first ∈ splitSlash bs by simp [hbs])]
        · exact ih (by simp [hbs, h])

def IsName (s : OsText) : Prop :=
  s.bytes ≠ [] ∧ s.bytes ≠ [dot] ∧ s.bytes ≠ [dot, dot] ∧ slash ∉ s.bytes

instance (s : OsText) : Decidable (IsName s) := inferInstanceAs (Decidable (_ ∧ _))

theorem ofSegment?_of_isName {s : OsText} (h : IsName s) :
    Component.ofSegment? s = some (.name s) := by
  obtain ⟨hempty, hdot, hdots, -⟩ := h
  simp [Component.ofSegment?, hempty, hdot, hdots]

theorem isName_of_ofSegment? {s t : OsText} (h : Component.ofSegment? s = some (.name t))
    (hs : slash ∉ s.bytes) : IsName t := by
  unfold Component.ofSegment? at h
  split at h
  · cases h
  next hplain =>
    split at h
    · cases h
    next hdots =>
      cases h
      exact ⟨fun hempty => hplain (.inl hempty), fun hdot => hplain (.inr hdot), hdots, hs⟩

theorem isName_of_mem_components {path s : OsText} (h : .name s ∈ components path) : IsName s := by
  have hparts : .name s ∈ (segments path).filterMap Component.ofSegment? := by
    simp only [components] at h
    split at h
    · simpa using h
    · split at h
      · simpa using h
      · exact h
  obtain ⟨part, hpart, hs⟩ := List.mem_filterMap.1 hparts
  obtain ⟨bs, hbs, rfl⟩ := List.mem_map.1 hpart
  exact isName_of_ofSegment? hs (not_mem_of_mem_splitSlash hbs)

theorem segments_of_isName {name : OsText} (h : IsName name) : segments name = [name] := by
  simp [segments, splitSlash_of_not_mem h.2.2.2]

theorem components_of_isName {name : OsText} (h : IsName name) :
    components name = [.name name] := by
  have habsolute : isAbsolute name = false := by
    rw [isAbsolute, beq_eq_false_iff_ne]
    intro hhead
    exact h.2.2.2 (List.mem_of_head? hhead)
  have hhere : some name ≠ some ⟨[dot]⟩ := by
    intro heq
    exact h.2.1 (congrArg OsText.bytes (Option.some.inj heq))
  simp [components, segments_of_isName h, habsolute, hhere, ofSegment?_of_isName h]

section Child

variable {dir name : OsText}

theorem child_of_empty (hdir : dir.bytes = []) (name : OsText) : child dir name = name := by
  simp [child, hdir]

theorem bytes_child (hdir : dir.bytes ≠ []) (name : OsText) :
    ∃ stem, (child dir name).bytes = stem ++ slash :: name.bytes ∧
      (dir.bytes = stem ∨ dir.bytes = stem ++ [slash]) := by
  unfold child
  split
  next h =>
    obtain ⟨stem, hstem⟩ := List.getLast?_eq_some_iff.1 (h.resolve_left hdir)
    exact ⟨stem, by simp [hstem], .inr hstem⟩
  next => exact ⟨dir.bytes, rfl, .inl rfl⟩

theorem bytes_child_eq_append (dir name : OsText) :
    ∃ rest, (child dir name).bytes = dir.bytes ++ rest := by
  unfold child
  split
  · exact ⟨name.bytes, rfl⟩
  · exact ⟨slash :: name.bytes, rfl⟩

theorem bytes_child_ne_nil (hname : IsName name) (dir : OsText) : (child dir name).bytes ≠ [] := by
  unfold child
  split <;> simp [hname.1]

theorem isAbsolute_child (hdir : dir.bytes ≠ []) (name : OsText) :
    isAbsolute (child dir name) = isAbsolute dir := by
  obtain ⟨rest, hrest⟩ := bytes_child_eq_append dir name
  obtain ⟨b, bs, hbs⟩ := List.exists_cons_of_ne_nil hdir
  simp [isAbsolute, hrest, hbs]

theorem segments_child (hdir : dir.bytes ≠ []) (hname : IsName name) :
    ∃ parts, parts ≠ [] ∧ segments (child dir name) = parts ++ [name] ∧
      (segments dir = parts ∨ segments dir = parts ++ [⟨[]⟩]) := by
  obtain ⟨stem, hchild, hstem⟩ := bytes_child hdir name
  refine ⟨(splitSlash stem).map OsText.mk, by simpa using splitSlash_ne_nil stem, ?_, ?_⟩
  · simp [segments, hchild, splitSlash_append, splitSlash_of_not_mem hname.2.2.2]
  · rcases hstem with hstem | hstem
    · exact .inl (by rw [segments, hstem])
    · exact .inr (by simp [segments, hstem, splitSlash_append, splitSlash])

theorem components_child (dir : OsText) (hname : IsName name) :
    components (child dir name) = components dir ++ [.name name] := by
  by_cases hdir : dir.bytes = []
  · rw [child_of_empty hdir, components_of_isName hname]
    simp [components, segments, hdir, splitSlash, isAbsolute, Component.ofSegment?]
  obtain ⟨parts, hparts, hchild, hsegments⟩ := segments_child hdir hname
  have hlast : [name].filterMap Component.ofSegment? = [.name name] :=
    List.filterMap_cons_some (ofSegment?_of_isName hname)
  have hrest : (segments (child dir name)).filterMap Component.ofSegment? =
      (segments dir).filterMap Component.ofSegment? ++ [.name name] := by
    rw [hchild, List.filterMap_append, hlast]
    rcases hsegments with h | h <;> simp [h, Component.ofSegment?]
  have hhead : (segments (child dir name)).head? = (segments dir).head? := by
    obtain ⟨part, parts, rfl⟩ := List.exists_cons_of_ne_nil hparts
    rcases hsegments with h | h <;> simp [hchild, h]
  simp only [components, hrest, hhead, isAbsolute_child hdir]
  split
  · rfl
  · split <;> rfl

theorem fileName?_child (dir : OsText) (hname : IsName name) :
    fileName? (child dir name) = some name := by
  rw [fileName?, components_child dir hname, List.getLast?_concat]

theorem descend_nil (path : OsText) : descend path [] = path := rfl

theorem descend_cons (path name : OsText) (names : List OsText) :
    descend path (name :: names) = descend (child path name) names := rfl

theorem components_descend (path : OsText) {names : List OsText}
    (hnames : ∀ name ∈ names, IsName name) :
    components (descend path names) = components path ++ names.map .name := by
  induction names generalizing path with
  | nil => simp [descend_nil]
  | cons name names ih =>
    have hname : IsName name := hnames name (by simp)
    rw [descend_cons, ih (child path name) fun n hn => hnames n (by simp [hn]),
      components_child path hname]
    simp

end Child

theorem stripPrefix?_eq_some_iff {root path rest : List Component} :
    stripPrefix? root path = some rest ↔ path = root ++ rest := by
  induction root generalizing path with
  | nil => simp [stripPrefix?, eq_comm]
  | cons a root ih =>
    cases path with
    | nil => simp [stripPrefix?]
    | cons b path =>
      rw [stripPrefix?]
      split
      next h => simp [h, ih]
      next h => simp [Ne.symm h]

theorem stripPrefix?_descend (root : OsText) {names : List OsText}
    (hnames : ∀ name ∈ names, IsName name) :
    stripPrefix? (components root) (components (descend root names)) = some (names.map .name) :=
  stripPrefix?_eq_some_iff.2 (components_descend root hnames)

def Component.bytes : Component → List UInt8
  | .name s => s.bytes
  | _ => []

theorem Component.cmp_eq_compareLex :
    Component.cmp = compareLex (compareOn Component.rank) (compareOn Component.bytes) := by
  funext a b
  cases a <;> cases b <;>
    simp [Component.cmp, compareLex, compareOn, Component.rank, Component.bytes, Ordering.then]

instance : Std.TransCmp Component.cmp :=
  Component.cmp_eq_compareLex ▸ inferInstance

instance : Std.LawfulEqCmp Component.cmp where
  eq_of_compare {a b} h := by
    cases a <;> cases b <;> simp_all [Component.cmp, Component.rank, OsText.ext_iff]

theorem cmpComponents_eq_compareLex : cmpComponents = List.compareLex Component.cmp := by
  funext as bs
  induction as generalizing bs with
  | nil => cases bs <;> rfl
  | cons a as ih =>
    cases bs with
    | nil => rfl
    | cons b bs => rw [cmpComponents, List.compareLex_cons_cons, ih]

instance : Std.TransCmp cmpComponents := cmpComponents_eq_compareLex ▸ inferInstance

instance : Std.LawfulEqCmp cmpComponents := cmpComponents_eq_compareLex ▸ inferInstance

theorem le_iff {p q : OsText} : le p q ↔ (cmpComponents (components p) (components q)).isLE := by
  rw [le, cmp]
  cases cmpComponents (components p) (components q) <;> decide

theorem le_trans {p q r : OsText} (hpq : le p q) (hqr : le q r) : le p r := by
  rw [le_iff] at *
  exact Std.TransCmp.isLE_trans hpq hqr

theorem le_total (p q : OsText) : le p q || le q p := by
  have hswap : cmpComponents (components q) (components p) =
      (cmpComponents (components p) (components q)).swap := Std.OrientedCmp.eq_swap
  rw [Bool.or_eq_true, le_iff, le_iff, hswap]
  cases cmpComponents (components p) (components q) <;> simp

instance : Std.Irrefl fun p q : OsText => cmp p q = .lt where
  irrefl p h := by
    have heq : cmpComponents (components p) (components p) = .eq := Std.ReflCmp.compare_self
    rw [cmp, heq] at h
    cases h

instance : Std.Antisymm fun p q : OsText => cmp p q = .lt where
  antisymm p q hpq hqp := by
    have hswap : cmpComponents (components p) (components q) =
        (cmpComponents (components q) (components p)).swap := Std.OrientedCmp.eq_swap
    rw [← cmp, ← cmp, hpq, hqp] at hswap
    cases hswap

theorem cmp_eq_lt {p q : OsText} (hle : le p q) (hne : components p ≠ components q) :
    cmp p q = .lt := by
  rw [le_iff] at hle
  rw [cmp]
  cases h : cmpComponents (components p) (components q) with
  | lt => rfl
  | eq => exact absurd (Std.LawfulEqCmp.eq_of_compare h) hne
  | gt =>
    rw [h] at hle
    cases hle

theorem pairwise_mergeSort {paths : List OsText}
    (h : paths.Pairwise fun p q => components p ≠ components q) :
    (paths.mergeSort le).Pairwise fun p q => cmp p q = .lt := by
  have hle : (paths.mergeSort le).Pairwise fun p q => le p q := by
    refine List.pairwise_mergeSort ?_ le_total paths
    intro p q r
    exact le_trans
  have hne := h.perm (List.mergeSort_perm paths le).symm fun hpq => hpq.symm
  exact hle.imp₂ (fun _ _ => cmp_eq_lt) hne

end CodeChunks.Path
