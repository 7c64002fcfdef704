import CodeChunks.Files.Entry
import CodeChunks.Proofs.Path.Order

namespace CodeChunks.Files

inductive Entry.WellFormed : Entry → Prop
  | file (content : ByteArray) : WellFormed (.file content)
  | directory {es : List (OsText × Entry)} (distinct : (es.map Prod.fst).Nodup)
      (named : ∀ x ∈ es, Path.IsName x.1) (below : ∀ x ∈ es, x.2.WellFormed) :
      WellFormed (.directory es)

structure Tree.WellFormed (t : Tree) : Prop where
  top : (Entry.directory t.top).WellFormed
  named : ∀ name ∈ t.workingDirectory, Path.IsName name

namespace Entry

theorem find?_of_mem {es : List (OsText × Entry)} (hdistinct : (es.map Prod.fst).Nodup)
    {x : OsText × Entry} (hx : x ∈ es) : es.find? (·.1 == x.1) = some x := by
  induction es with
  | nil => cases hx
  | cons y es ih =>
    obtain ⟨hfresh, htail⟩ := List.nodup_cons.1 hdistinct
    rcases List.mem_cons.1 hx with rfl | hx
    · simp
    · have hne : y.1 ≠ x.1 := by
        intro h
        exact hfresh (h ▸ List.mem_map_of_mem hx)
      simp [hne, ih htail hx]

theorem isName_of_mem {es : List (OsText × Entry)} (h : (Entry.directory es).WellFormed)
    {x : OsText × Entry} (hx : x ∈ es) : Path.IsName x.1 := by
  cases h with
  | directory _ named => exact named x hx

theorem get?_of_mem {es : List (OsText × Entry)} (h : (Entry.directory es).WellFormed)
    {x : OsText × Entry} (hx : x ∈ es) : (Entry.directory es).get? x.1 = some x.2 := by
  cases h with
  | directory distinct => simp [get?, entries, find?_of_mem distinct hx]

theorem wellFormed_emptyDirectory : emptyDirectory.WellFormed := by
  constructor <;> simp

theorem WellFormed.entries {e : Entry} (h : e.WellFormed) :
    (Entry.directory e.entries).WellFormed := by
  cases h with
  | file content => exact wellFormed_emptyDirectory
  | directory distinct named below => exact .directory distinct named below

theorem WellFormed.of_get? {e below : Entry} (h : e.WellFormed) {name : OsText}
    (hget : e.get? name = some below) : below.WellFormed := by
  cases h with
  | file content => cases hget
  | @directory es _ _ hbelow =>
    obtain ⟨x, hx, rfl⟩ := Option.map_eq_some_iff.1 hget
    exact hbelow x (List.mem_of_find?_eq_some hx)

end Entry

namespace Place

structure WellFormed (p : Place) : Prop where
  entry : p.entry.WellFormed
  above : ∀ x ∈ p.above, x.1.WellFormed

theorem WellFormed.up {p : Place} (h : p.WellFormed) : p.up.WellFormed := by
  obtain ⟨entry, above⟩ := p
  cases above with
  | nil => exact h
  | cons x above => exact ⟨h.above x (by simp), fun y hy => h.above y (List.mem_cons_of_mem x hy)⟩

theorem WellFormed.follow {p q : Place} (h : p.WellFormed) {parts : List OsText}
    (hq : p.follow parts = .ok q) : q.WellFormed := by
  induction parts generalizing p with
  | nil =>
    cases hq
    exact h
  | cons part parts ih =>
    rw [Place.follow] at hq
    split at hq
    · cases hq
    split at hq
    · exact ih h hq
    split at hq
    · exact ih h.up hq
    split at hq
    · cases hq
    split at hq
    next e he =>
      refine ih ⟨h.entry.of_get? he, ?_⟩ hq
      intro x hx
      rcases List.mem_cons.1 hx with rfl | hx
      · exact h.entry
      · exact h.above x hx
    next => cases hq

theorem follow_append (p : Place) (xs ys : List OsText) :
    p.follow (xs ++ ys) = (p.follow xs).bind (·.follow ys) := by
  induction xs generalizing p with
  | nil => rfl
  | cons part xs ih =>
    simp only [List.cons_append, Place.follow, ih]
    split
    · rfl
    split
    · rfl
    split
    · rfl
    split
    · rfl
    split <;> rfl

theorem follow_append_eq_ok {p q : Place} {xs ys : List OsText}
    (h : p.follow (xs ++ ys) = .ok q) : ∃ r, p.follow xs = .ok r ∧ r.follow ys = .ok q := by
  rw [follow_append] at h
  cases hxs : p.follow xs with
  | error e =>
    rw [hxs] at h
    cases h
  | ok r =>
    rw [hxs] at h
    exact ⟨r, rfl, h⟩

theorem follow_name {p q : Place} {name : OsText} (hname : Path.IsName name)
    (h : p.follow [name] = .ok q) :
    p.entry.isDirectory ∧ p.entry.get? name = some q.entry := by
  obtain ⟨hempty, hdot, hdots, -⟩ := hname
  simp only [Place.follow, hempty, hdot, hdots, or_self, if_false] at h
  split at h
  · cases h
  next hdirectory =>
    split at h
    · cases h
    split at h
    next e he =>
      cases h
      exact ⟨by simpa using hdirectory, he⟩
    next => cases h

end Place

namespace Tree

theorem locate_eq_ok {t : Tree} {path : OsText} {p : Place} :
    t.locate path = .ok p ↔ 0 ∉ path.bytes ∧ path.bytes ≠ [] ∧
      path.bytes.length ≤ pathLimit ∧
      Place.follow ⟨.directory t.top, []⟩ (t.route path) = .ok p := by
  unfold locate
  split
  next hnul => simp [hnul]
  next hnul =>
    split
    next hempty => simp [hempty]
    next hempty =>
      split
      next hlimit => simp [Nat.not_le.2 hlimit]
      next hlimit => simp [hnul, hempty, Nat.not_lt.1 hlimit]

theorem fits_of_locate {t : Tree} {path : OsText} {p : Place} (h : t.locate path = .ok p) :
    fits path :=
  decide_eq_true (locate_eq_ok.1 h).2.2.1

theorem wellFormed_of_locate {t : Tree} (ht : t.WellFormed) {path : OsText} {p : Place}
    (h : t.locate path = .ok p) : p.WellFormed :=
  Place.WellFormed.follow ⟨ht.top, by simp⟩ (locate_eq_ok.1 h).2.2.2

/-- Where the path leads anywhere, it leads to this entry. -/
def Reaches (t : Tree) (path : OsText) (e : Entry) : Prop :=
  ∀ p, t.locate path = .ok p → p.entry = e

theorem reaches_of_locate {t : Tree} {path : OsText} {p : Place} (h : t.locate path = .ok p) :
    t.Reaches path p.entry := by
  intro q hq
  cases h.symm.trans hq
  rfl

theorem Reaches.info {t : Tree} {path : OsText} {e : Entry} (h : t.Reaches path e)
    {info : FileInfo} (hinfo : t.info path = .ok info) : fits path ∧ info = e.info := by
  cases hlocate : t.locate path with
  | error error =>
    rw [Tree.info, hlocate] at hinfo
    cases hinfo
  | ok p =>
    rw [Tree.info, hlocate] at hinfo
    cases hinfo
    exact ⟨fits_of_locate hlocate, by rw [← h p hlocate]⟩

theorem route_child {dir name : OsText} (t : Tree) (hdir : dir.bytes ≠ [])
    (hname : Path.IsName name) :
    ∃ parts, t.route (Path.child dir name) = parts ++ [name] ∧
      (t.route dir = parts ∨ t.route dir = parts ++ [⟨[]⟩]) := by
  obtain ⟨parts, -, hchild, hsegments⟩ := Path.segments_child hdir hname
  simp only [route, Path.isAbsolute_child hdir, hchild]
  split
  · exact ⟨parts, rfl, hsegments⟩
  · refine ⟨t.workingDirectory ++ parts, by rw [List.append_assoc], ?_⟩
    rcases hsegments with h | h
    · exact .inl (by rw [h])
    · exact .inr (by rw [h, List.append_assoc])

theorem exists_locate_of_child {t : Tree} {dir name : OsText} {q : Place} (hdir : dir.bytes ≠ [])
    (hname : Path.IsName name) (h : t.locate (Path.child dir name) = .ok q) :
    ∃ p, t.locate dir = .ok p ∧ p.entry.get? name = some q.entry := by
  obtain ⟨hnul, -, hlimit, hfollow⟩ := locate_eq_ok.1 h
  obtain ⟨rest, hrest⟩ := Path.bytes_child_eq_append dir name
  have hnulDir : 0 ∉ dir.bytes := by
    intro hmem
    exact hnul (by simp [hrest, hmem])
  have hlimitDir : dir.bytes.length ≤ pathLimit := by
    rw [hrest, List.length_append] at hlimit
    omega
  obtain ⟨parts, hchild, hroute⟩ := t.route_child hdir hname
  rw [hchild] at hfollow
  obtain ⟨p, hp, hlast⟩ := Place.follow_append_eq_ok hfollow
  obtain ⟨hdirectory, hget⟩ := Place.follow_name hname hlast
  refine ⟨p, locate_eq_ok.2 ⟨hnulDir, hdir, hlimitDir, ?_⟩, hget⟩
  rcases hroute with hroute | hroute
  · rw [hroute, hp]
  · -- The empty part after a slash at the end stays where it is.
    rw [hroute, Place.follow_append, hp]
    simp [Except.bind, Place.follow, hdirectory]

theorem Reaches.child {t : Tree} {dir : OsText} {es : List (OsText × Entry)}
    (h : t.Reaches dir (.directory es)) (hdir : dir.bytes ≠ [])
    (hes : (Entry.directory es).WellFormed) {x : OsText × Entry} (hx : x ∈ es) :
    t.Reaches (Path.child dir x.1) x.2 := by
  intro q hq
  obtain ⟨p, hp, hget⟩ := exists_locate_of_child hdir (Entry.isName_of_mem hes hx) hq
  rw [h p hp, Entry.get?_of_mem hes hx] at hget
  exact (Option.some.inj hget).symm

theorem mem_replaceIn {es : List (OsText × Entry)} {name : OsText} {o : Option Entry}
    {x : OsText × Entry} (hx : x ∈ replaceIn es name o) : x ∈ es ∨ x.1 = name ∧ o = some x.2 := by
  cases o with
  | none => exact .inl (List.mem_filter.1 hx).1
  | some e =>
    rw [replaceIn] at hx
    split at hx
    · obtain ⟨old, hold, rfl⟩ := List.mem_map.1 hx
      split
      · exact .inr ⟨rfl, rfl⟩
      · exact .inl hold
    · rcases List.mem_append.1 hx with hx | hx
      · exact .inl hx
      · obtain rfl : x = (name, e) := by simpa using hx
        exact .inr ⟨rfl, rfl⟩

theorem nodup_replaceIn {es : List (OsText × Entry)} (h : (es.map Prod.fst).Nodup)
    (name : OsText) (o : Option Entry) : ((replaceIn es name o).map Prod.fst).Nodup := by
  cases o with
  | none => exact h.sublist (List.filter_sublist.map Prod.fst)
  | some e =>
    rw [replaceIn]
    split
    next =>
      have hnames : (es.map fun old => if old.1 == name then (name, e) else old).map Prod.fst =
          es.map Prod.fst := by
        rw [List.map_map]
        apply List.map_congr_left
        intro old _
        by_cases hold : old.1 = name <;> simp [hold]
      rwa [hnames]
    next hnew =>
      have hfresh : name ∉ es.map Prod.fst := by
        intro hmem
        obtain ⟨old, hold, hname⟩ := List.mem_map.1 hmem
        exact hnew (List.any_eq_true.2 ⟨old, hold, by simp [hname]⟩)
      rw [List.map_append, List.map_singleton, List.nodup_append]
      refine ⟨h, by simp, ?_⟩
      intro old hold new hnew
      obtain rfl : new = name := by simpa using hnew
      exact fun heq => hfresh (heq ▸ hold)

theorem wellFormed_replaceIn {es : List (OsText × Entry)} (hes : (Entry.directory es).WellFormed)
    {name : OsText} (hname : Path.IsName name) {o : Option Entry} (ho : ∀ e ∈ o, e.WellFormed) :
    (Entry.directory (replaceIn es name o)).WellFormed := by
  cases hes with
  | directory distinct named below =>
    refine .directory (nodup_replaceIn distinct name o) ?_ ?_
    · intro x hx
      rcases mem_replaceIn hx with hx | ⟨hx, -⟩
      · exact named x hx
      · exact hx ▸ hname
    · intro x hx
      rcases mem_replaceIn hx with hx | ⟨-, hx⟩
      · exact below x hx
      · exact ho x.2 hx

theorem wellFormed_alter {f : Option Entry → Option Entry}
    (hf : ∀ o, (∀ e ∈ o, e.WellFormed) → ∀ e ∈ f o, e.WellFormed) {names : List OsText}
    (hnames : ∀ name ∈ names, Path.IsName name) {o : Option Entry} (ho : ∀ e ∈ o, e.WellFormed) :
    ∀ e ∈ alter f names o, e.WellFormed := by
  induction names generalizing o with
  | nil => exact hf o ho
  | cons name names ih =>
    intro e he
    have hes : (Entry.directory ((o.map Entry.entries).getD [])).WellFormed := by
      cases o with
      | none => exact Entry.wellFormed_emptyDirectory
      | some e => exact (ho e rfl).entries
    obtain rfl := Option.some.inj he
    apply wellFormed_replaceIn hes (hnames name (by simp))
    apply ih fun n hn => hnames n (by simp [hn])
    intro below hbelow
    exact hes.of_get? hbelow

theorem isName_of_mem_namesOf {path name : OsText} (h : name ∈ namesOf path) :
    Path.IsName name := by
  obtain ⟨c, hc, hname⟩ := List.mem_filterMap.1 h
  cases c with
  | name s =>
    cases hname
    exact Path.isName_of_mem_components hc
  | _ => cases hname

theorem WellFormed.modify {t : Tree} (ht : t.WellFormed) (path : OsText)
    {f : Option Entry → Option Entry}
    (hf : ∀ o, (∀ e ∈ o, e.WellFormed) → ∀ e ∈ f o, e.WellFormed) :
    (t.modify path f).WellFormed := by
  have hnames : ∀ name ∈ if Path.isAbsolute path then namesOf path
      else t.workingDirectory ++ namesOf path, Path.IsName name := by
    intro name hname
    split at hname
    · exact isName_of_mem_namesOf hname
    · rcases List.mem_append.1 hname with hname | hname
      · exact ht.named name hname
      · exact isName_of_mem_namesOf hname
  have htop : ∀ e ∈ some (Entry.directory t.top), e.WellFormed := by
    rintro e ⟨⟩
    exact ht.top
  have haltered := wellFormed_alter hf hnames htop
  simp only [Tree.modify]
  generalize alter f _ (some (.directory t.top)) = altered at haltered ⊢
  cases altered with
  | some e => exact ⟨(haltered e rfl).entries, ht.named⟩
  | none => exact ⟨Entry.wellFormed_emptyDirectory, ht.named⟩

theorem wellFormed_empty : ({} : Tree).WellFormed :=
  ⟨Entry.wellFormed_emptyDirectory, by simp⟩

theorem WellFormed.write {t : Tree} (ht : t.WellFormed) (path : OsText) (content : ByteArray) :
    (t.write path content).WellFormed := by
  apply ht.modify
  rintro o - e ⟨⟩
  exact .file content

def ofFiles (files : List (OsText × ByteArray)) : Tree :=
  files.foldl (fun t f => t.write f.1 f.2) {}

theorem wellFormed_ofFiles (files : List (OsText × ByteArray)) : (ofFiles files).WellFormed :=
  List.foldlRecOn files _ wellFormed_empty fun _ ht _ _ => ht.write _ _

theorem WellFormed.makeDirectory {t : Tree} (ht : t.WellFormed) (path : OsText) :
    (t.makeDirectory path).WellFormed := by
  apply ht.modify
  intro o ho e he
  cases o with
  | none =>
    cases he
    exact Entry.wellFormed_emptyDirectory
  | some old =>
    by_cases hdirectory : old.isDirectory
    · obtain rfl : old = e := by simpa [hdirectory] using he
      exact ho old rfl
    · obtain rfl : Entry.emptyDirectory = e := by simpa [hdirectory] using he
      exact Entry.wellFormed_emptyDirectory

theorem WellFormed.remove {t : Tree} (ht : t.WellFormed) (path : OsText) :
    (t.remove path).1.WellFormed := by
  unfold Tree.remove
  split
  · split
    · exact ht
    · exact ht.modify path nofun
  · exact ht

end Tree

end CodeChunks.Files
