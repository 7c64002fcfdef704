import CodeChunks.Proofs.Files.Tree
import Mathlib.Data.List.Basic

/-!
Walks through directories. What is relied on of a walk is that it comes to each entry once, that a
predicate cuts off what it refuses with all that is below, and that a file that tells its size tells
the one it has. Walks through trees do so, whatever they leave out of themselves.
-/

namespace CodeChunks.Files

def Apart (a b : Except String Found) : Prop :=
  ∀ f g, a = .ok f → b = .ok g → Path.components f.path ≠ Path.components g.path

/-- No entry is come to twice. -/
def Walker.Once (walk : Walker) : Prop :=
  ∀ options keep root, (walk options keep root).Pairwise Apart

structure Walker.Documented (walk : Walker) : Prop where
  once : walk.Once
  below : ∀ options keep root f, .ok f ∈ walk options keep root →
    ∃ names, (∀ name ∈ names, Path.IsName name) ∧ f.path = Path.descend root names
  /-- Nothing is passed by but what the predicate refuses, and what is below. -/
  filtered : ∀ options keep root f names, keep root → (∀ name ∈ names, Path.IsName name) →
    f.path = Path.descend root names →
      (.ok f ∈ walk options keep root ↔ .ok f ∈ walk options (fun _ => true) root ∧
        ∀ way, way <+: names → keep (Path.descend root way))

/-- Files that can be asked for their size are found with it. -/
def FileSystem.Measured (files : FileSystem) : Prop :=
  ∀ options keep root f info, .ok f ∈ files.walk options keep root → f.kind = some .file →
    files.info f.path = .ok info → f.size = some info.size

section Entry

variable {excluded : List OsText → Bool → Bool} {keep : OsText → Bool} {path : OsText}
  {before names : List OsText} {e target : Entry} {f : Found}

def visit (excluded : List OsText → Bool → Bool) (keep : OsText → Bool) (path : OsText)
    (before : List OsText) (x : OsText × Entry) : List (Except String Found) :=
  if excluded (before ++ [x.1]) x.2.isDirectory || !keep (Path.child path x.1) then []
  else x.2.walk excluded keep (Path.child path x.1) (before ++ [x.1])

theorem walkEntries_eq_flatMap (es : List (OsText × Entry)) :
    walkEntries excluded keep path before es = es.flatMap (visit excluded keep path before) := by
  induction es with
  | nil => rw [walkEntries, List.flatMap_nil]
  | cons x es ih => rw [walkEntries, ih, List.flatMap_cons, visit]

theorem walk_directory (es : List (OsText × Entry)) :
    (Entry.directory es).walk excluded keep path before =
      .ok ((Entry.directory es).found path) ::
        if Tree.fits path then es.flatMap (visit excluded keep path before)
        else [.error IoError.nameTooLong.message] := by
  rw [Entry.walk, walkEntries_eq_flatMap]

theorem mem_visit {x : OsText × Entry} :
    .ok f ∈ visit excluded keep path before x ↔
      excluded (before ++ [x.1]) x.2.isDirectory = false ∧ keep (Path.child path x.1) ∧
        .ok f ∈ x.2.walk excluded keep (Path.child path x.1) (before ++ [x.1]) := by
  unfold visit
  cases excluded (before ++ [x.1]) x.2.isDirectory with
  | true => simp
  | false => cases hkeep : keep (Path.child path x.1) <;> simp

theorem mem_walk_directory {es : List (OsText × Entry)} :
    .ok f ∈ (Entry.directory es).walk excluded keep path before ↔
      f = (Entry.directory es).found path ∨
        Tree.fits path ∧ ∃ x ∈ es, .ok f ∈ visit excluded keep path before x := by
  rw [walk_directory]
  split
  next h => simp [h]
  next h => simp [h]

/-- Names that lead from an entry at a path to another, past nothing that the walk leaves out of
itself and through directories that can be read. -/
inductive Leads (excluded : List OsText → Bool → Bool) :
    OsText → List OsText → Entry → List OsText → Entry → Prop
  | here {path : OsText} {before : List OsText} {e : Entry} : Leads excluded path before e [] e
  | entry {path : OsText} {before : List OsText} {es : List (OsText × Entry)} {x : OsText × Entry}
      {names : List OsText} {target : Entry} (fits : Tree.fits path) (mem : x ∈ es)
      (kept : excluded (before ++ [x.1]) x.2.isDirectory = false)
      (rest : Leads excluded (Path.child path x.1) (before ++ [x.1]) x.2 names target) :
      Leads excluded path before (.directory es) (x.1 :: names) target

theorem Leads.isName (h : Leads excluded path before e names target) (he : e.WellFormed) :
    ∀ name ∈ names, Path.IsName name := by
  induction h with
  | here => simp
  | entry fits mem kept rest ih =>
    cases he with
    | directory distinct named below =>
      exact List.forall_mem_cons.2 ⟨named _ mem, ih (below _ mem)⟩

def Kept (keep : OsText → Bool) (path : OsText) (names : List OsText) : Prop :=
  ∀ way, way <+: names → way ≠ [] → keep (Path.descend path way)

theorem kept_cons_iff {name : OsText} :
    Kept keep path (name :: names) ↔
      keep (Path.child path name) ∧ Kept keep (Path.child path name) names := by
  constructor
  · intro h
    refine ⟨h [name] (by simp) (by simp), ?_⟩
    intro way hway _
    exact h (name :: way) (List.cons_prefix_cons.2 ⟨rfl, hway⟩) (by simp)
  · rintro ⟨hfirst, hrest⟩ way hway hne
    obtain ⟨next, way, rfl⟩ := List.exists_cons_of_ne_nil hne
    obtain ⟨rfl, hbelow⟩ := List.cons_prefix_cons.1 hway
    by_cases hempty : way = []
    · rw [hempty]
      exact hfirst
    · exact hrest way hbelow hempty

theorem mem_walk_iff (he : e.WellFormed) :
    .ok f ∈ e.walk excluded keep path before ↔
      ∃ names target, Leads excluded path before e names target ∧ Kept keep path names ∧
        f = target.found (Path.descend path names) := by
  have hnil (keep : OsText → Bool) (path : OsText) : Kept keep path [] := by
    intro way hway hne
    exact absurd (List.prefix_nil.1 hway) hne
  induction he generalizing path before with
  | file content =>
    constructor
    · intro h
      obtain rfl : f = _ := by simpa [Entry.walk] using h
      exact ⟨[], _, .here, hnil keep path, rfl⟩
    · rintro ⟨names, target, ⟨⟩, -, rfl⟩
      simp [Entry.walk, Path.descend_nil]
  | @directory es distinct named below ih =>
    rw [mem_walk_directory]
    constructor
    · rintro (rfl | ⟨hfits, x, hx, hvisit⟩)
      · exact ⟨[], _, .here, hnil keep path, rfl⟩
      · obtain ⟨hexcluded, hkeep, hwalk⟩ := mem_visit.1 hvisit
        obtain ⟨names, target, hleads, hkept, hf⟩ := (ih x hx).1 hwalk
        exact ⟨x.1 :: names, target, .entry hfits hx hexcluded hleads,
          kept_cons_iff.2 ⟨hkeep, hkept⟩, hf⟩
    · rintro ⟨_, target, hleads, hkept, hf⟩
      cases hleads with
      | here => exact .inl hf
      | @entry _ _ _ x names _ hfits hx hexcluded hrest =>
        obtain ⟨hkeep, hkept⟩ := kept_cons_iff.1 hkept
        have hwalk := (ih x hx).2 ⟨names, target, hrest, hkept, hf⟩
        exact .inr ⟨hfits, x, hx, mem_visit.2 ⟨hexcluded, hkeep, hwalk⟩⟩

theorem components_of_mem_walk (he : e.WellFormed)
    (hf : .ok f ∈ e.walk excluded keep path before) :
    Path.components path <+: Path.components f.path := by
  obtain ⟨names, target, hleads, -, rfl⟩ := (mem_walk_iff he).1 hf
  exact ⟨_, (Path.components_descend path (hleads.isName he)).symm⟩

theorem components_of_mem_visit {es : List (OsText × Entry)} (he : (Entry.directory es).WellFormed)
    {x : OsText × Entry} (hx : x ∈ es) (hf : .ok f ∈ visit excluded keep path before x) :
    Path.components path ++ [.name x.1] <+: Path.components f.path := by
  rw [← Path.components_child path (Entry.isName_of_mem he hx)]
  cases he with
  | directory _ _ below => exact components_of_mem_walk (below x hx) (mem_visit.1 hf).2.2

theorem apart_of_mem_visit {es : List (OsText × Entry)} (he : (Entry.directory es).WellFormed)
    {x y : OsText × Entry} (hx : x ∈ es) (hy : y ∈ es) (hne : x.1 ≠ y.1)
    {a b : Except String Found} (ha : a ∈ visit excluded keep path before x)
    (hb : b ∈ visit excluded keep path before y) : Apart a b := by
  rintro f g rfl rfl heq
  have hfx := components_of_mem_visit he hx ha
  have hgy := components_of_mem_visit he hy hb
  rw [← heq] at hgy
  have hxy := (List.prefix_of_prefix_length_le hfx hgy (by simp)).eq_of_length (by simp)
  exact hne (by simpa using hxy)

theorem pairwise_walk (he : e.WellFormed) :
    (e.walk excluded keep path before).Pairwise Apart := by
  induction he generalizing path before with
  | file content => simp [Entry.walk]
  | @directory es distinct named below ih =>
    have he : (Entry.directory es).WellFormed := .directory distinct named below
    rw [walk_directory, List.pairwise_cons]
    split
    case isFalse => simp [Apart]
    constructor
    · -- What is below the directory has one component more.
      rintro b hb f g hf rfl heq
      obtain ⟨x, hx, hvisit⟩ := List.mem_flatMap.1 hb
      have hlength := (components_of_mem_visit he hx hvisit).length_le
      cases hf
      rw [← heq, List.length_append] at hlength
      exact absurd hlength (by simp [Entry.found])
    · rw [List.pairwise_flatMap]
      constructor
      · intro x hx
        unfold visit
        split
        · exact .nil
        · exact ih x hx
      · refine (List.pairwise_map.1 distinct).imp_of_mem ?_
        intro x y hx hy hne a ha b hb
        exact apart_of_mem_visit he hx hy hne ha hb

theorem Leads.reaches {t : Tree} (h : Leads excluded path before e names target)
    (he : e.WellFormed) (hpath : path.bytes ≠ []) (hreach : t.Reaches path e) :
    t.Reaches (Path.descend path names) target := by
  induction h with
  | here => exact hreach
  | @entry path _ es x _ _ fits mem kept rest ih =>
    have hname := Entry.isName_of_mem he mem
    have hchild := hreach.child hpath he mem
    cases he with
    | directory _ _ below => exact ih (below x mem) (Path.bytes_child_ne_nil hname path) hchild

end Entry

namespace Tree

variable {t : Tree} (ht : t.WellFormed) (exclusion : Exclusion)

theorem walk_of_locate {options : WalkOptions} {keep : OsText → Bool} {root : OsText} {p : Place}
    (hinput : isStandardInput root = false) (hp : t.locate root = .ok p) :
    t.walk exclusion options keep root = p.entry.walk (exclusion options root) keep root [] := by
  simp [walk, hinput, hp]

include ht

theorem mem_walk {options : WalkOptions} {keep : OsText → Bool} {root : OsText} {f : Found} :
    .ok f ∈ t.walk exclusion options keep root ↔
      isStandardInput root ∧ f = ⟨root, none, none⟩ ∨
        isStandardInput root = false ∧ ∃ p names target, t.locate root = .ok p ∧
          Leads (exclusion options root) root [] p.entry names target ∧ Kept keep root names ∧
          f = target.found (Path.descend root names) := by
  cases hinput : isStandardInput root with
  | true => simp [walk, hinput]
  | false =>
    cases hp : t.locate root with
    | error error => simp [walk, hinput, hp]
    | ok p =>
      rw [walk_of_locate exclusion hinput hp, mem_walk_iff (t.wellFormed_of_locate ht hp).entry]
      simp

theorem once_walk : Walker.Once (t.walk exclusion) := by
  intro options keep root
  unfold walk
  split
  · exact List.pairwise_singleton _ _
  · split
    next p hp => exact pairwise_walk (t.wellFormed_of_locate ht hp).entry
    next => exact List.pairwise_singleton _ _

theorem documented_walk : Walker.Documented (t.walk exclusion) where
  once := once_walk ht exclusion
  below := by
    intro options keep root f hf
    rcases (mem_walk ht exclusion).1 hf with ⟨-, rfl⟩ | ⟨-, p, names, target, hp, hleads, -, rfl⟩
    · exact ⟨[], by simp, rfl⟩
    · exact ⟨names, hleads.isName (t.wellFormed_of_locate ht hp).entry, rfl⟩
  filtered := by
    intro options keep root f names hroot hnames hpath
    -- The way to what is found is told by its path.
    have hway {names' : List OsText} (hnames' : ∀ name ∈ names', Path.IsName name)
        (h : f.path = Path.descend root names') : names' = names := by
      have hcomponents := congrArg Path.components (hpath.symm.trans h)
      rw [Path.components_descend root hnames, Path.components_descend root hnames'] at hcomponents
      have hmap := List.append_cancel_left hcomponents
      exact (List.map_injective_iff.2 (fun _ _ => Path.Component.name.inj) hmap).symm
    have hsteps : Kept keep root names ↔ ∀ way, way <+: names → keep (Path.descend root way) := by
      constructor
      · intro h way hup
        by_cases hempty : way = []
        · rw [hempty]
          exact hroot
        · exact h way hup hempty
      · exact fun h way hup _ => h way hup
    rw [mem_walk ht, mem_walk ht, ← hsteps]
    constructor
    · rintro (⟨hinput, rfl⟩ | ⟨hinput, p, names', target, hp, hleads, hkept, rfl⟩)
      · obtain rfl := hway (List.forall_mem_nil Path.IsName) rfl
        exact ⟨.inl ⟨hinput, rfl⟩, fun way hup hne => absurd (List.prefix_nil.1 hup) hne⟩
      · obtain rfl := hway (hleads.isName (t.wellFormed_of_locate ht hp).entry) rfl
        exact ⟨.inr ⟨hinput, p, _, target, hp, hleads, by simp [Kept], rfl⟩, hkept⟩
    · rintro ⟨⟨hinput, rfl⟩ | ⟨hinput, p, names', target, hp, hleads, -, rfl⟩, hkept⟩
      · exact .inl ⟨hinput, rfl⟩
      · obtain rfl := hway (hleads.isName (t.wellFormed_of_locate ht hp).entry) rfl
        exact .inr ⟨hinput, p, _, target, hp, hleads, hkept, rfl⟩

theorem measured_system : (t.system exclusion).Measured := by
  intro options keep root f info hf hkind hinfo
  rcases (mem_walk ht exclusion).1 hf with ⟨-, rfl⟩ | ⟨-, p, names, target, hp, hleads, -, rfl⟩
  · cases hkind
  · have hreach := hleads.reaches (t.wellFormed_of_locate ht hp).entry (locate_eq_ok.1 hp).2.1
      (reaches_of_locate hp)
    obtain ⟨hfits, rfl⟩ := hreach.info hinfo
    simp [Entry.found, show fits (Path.descend root names) from hfits, Entry.info]

end Tree

end CodeChunks.Files
