import CodeChunks.Files.Scan
import CodeChunks.Proofs.Files.Padding
import CodeChunks.Proofs.Files.Walk
import CodeChunks.Proofs.OsText
import Mathlib.Data.List.Sort

/-!
What a scan lists, over any file system whose walks do as they are documented to. Main statement:
it lists, in strict order, exactly the files of the full walk that lie outside ignored scopes below
the root, have a policy, do not tell that they are too large and are no bundles; cutting ignored
scopes off the walk loses nothing but what would be dropped afterwards.
-/

namespace CodeChunks.Files

section Scan

variable {files : FileSystem} {r : Registry} {options : ScanOptions} {root path : OsText}
  {names : List OsText} {f : Found}

def fullWalk (files : FileSystem) (options : ScanOptions) (root : OsText) :
    List (Except String Found) :=
  files.walk options.walk (fun _ => true) root

/-- What is found at the end of some names below the root is a file that a scan is for. A size
counts where it is told. -/
structure Wanted (r : Registry) (options : ScanOptions) (names : List OsText) (f : Found) :
    Prop where
  file : f.kind = some .file
  outside : ∀ name ∈ names, Text.lowercase name.display ∉ ignoredScopes
  resolved : (r.resolve? f.path).isSome
  small : ∀ size, f.size = some size → size ≤ options.maxFileBytes
  unbundled : ∀ name : String, Path.fileName? f.path = some (.ofString name) →
    ∀ suffix ∈ [".min.js", ".bundle.js"], ¬suffix.toList <:+ (Text.lowercase name).toList

theorem isMinified_eq_false_iff :
    isMinified path = false ↔ ∀ name : String, Path.fileName? path = some (.ofString name) →
      ∀ suffix ∈ [".min.js", ".bundle.js"],
        ¬suffix.toList <:+ (Text.lowercase name).toList := by
  simp only [← OsText.bind_text?_eq_some_iff]
  unfold isMinified
  cases (Path.fileName? path).bind OsText.text? with
  | none => simp
  | some name => simp [← List.isSuffixOf_iff_suffix]

theorem wanted?_eq_some_iff {found : Except String Found} :
    wanted? r options found = some path ↔ ∃ f, found = .ok f ∧ f.path = path ∧
      f.kind = some .file ∧ (r.resolve? f.path).isSome ∧
      (∀ size, f.size = some size → size ≤ options.maxFileBytes) ∧ isMinified f.path = false := by
  cases found with
  | error e => simp [wanted?]
  | ok f =>
    have hsmall : f.size.all (· ≤ options.maxFileBytes) ↔
        ∀ size, f.size = some size → size ≤ options.maxFileBytes := by
      cases f.size <;> simp
    simp only [wanted?, Option.ite_none_right_eq_some, hsmall, Bool.not_eq_true',
      Option.some.injEq, Except.ok.injEq, exists_eq_left']
    tauto

theorem isIgnoredScope_descend (root : OsText) (hnames : ∀ name ∈ names, Path.IsName name) :
    isIgnoredScope (Path.descend root names) root ↔
      ∃ name ∈ names, Text.lowercase name.display ∈ ignoredScopes := by
  rw [isIgnoredScope, Path.stripPrefix?_descend root hnames]
  simp [namesScope]

theorem forall_not_isIgnoredScope_iff (root : OsText) (hnames : ∀ name ∈ names, Path.IsName name) :
    (∀ way, way <+: names → !isIgnoredScope (Path.descend root way) root) ↔
      ∀ name ∈ names, Text.lowercase name.display ∉ ignoredScopes := by
  have hway {way : List OsText} (h : way <+: names) :
      !isIgnoredScope (Path.descend root way) root ↔
        ∀ name ∈ way, Text.lowercase name.display ∉ ignoredScopes := by
    have hscope := isIgnoredScope_descend root fun name hname => hnames name (h.subset hname)
    rw [Bool.not_eq_true', ← Bool.not_eq_true, hscope]
    simp
  constructor
  · intro h
    exact (hway List.prefix_rfl).1 (h names List.prefix_rfl)
  · intro h way hup
    exact (hway hup).2 fun name hname => h name (hup.subset hname)

theorem pairwise_wanted (honce : files.walk.Once) (keep : OsText → Bool) :
    ((files.walk options.walk keep root).filterMap (wanted? r options)).Pairwise fun p q =>
      Path.components p ≠ Path.components q := by
  rw [List.pairwise_filterMap]
  refine (honce options.walk keep root).imp ?_
  intro a b hne p hp q hq
  obtain ⟨f, rfl, rfl, -⟩ := wanted?_eq_some_iff.1 hp
  obtain ⟨g, rfl, rfl, -⟩ := wanted?_eq_some_iff.1 hq
  exact hne f g rfl rfl

theorem pairwise_scan (honce : files.walk.Once) (r : Registry) (options : ScanOptions)
    (root : OsText) : (scan files r options root).Pairwise fun p q => Path.cmp p q = .lt :=
  Path.pairwise_mergeSort (pairwise_wanted honce _)

theorem exists_found_of_mem_scan (h : path ∈ scan files r options root) :
    ∃ keep f, .ok f ∈ files.walk options.walk keep root ∧ f.path = path ∧ f.kind = some .file ∧
      (r.resolve? path).isSome ∧ ∀ size, f.size = some size → size ≤ options.maxFileBytes := by
  rw [scan, List.mem_mergeSort, List.mem_filterMap] at h
  obtain ⟨_, hfound, hwanted⟩ := h
  obtain ⟨f, rfl, rfl, hfile, hresolved, hsmall, -⟩ := wanted?_eq_some_iff.1 hwanted
  exact ⟨_, f, hfound, rfl, hfile, hresolved, hsmall⟩

section Documented

variable (hwalk : files.walk.Documented)

include hwalk

theorem mem_scan_iff :
    path ∈ scan files r options root ↔ ∃ names f, (∀ name ∈ names, Path.IsName name) ∧
      path = Path.descend root names ∧ f.path = path ∧ .ok f ∈ fullWalk files options root ∧
      Wanted r options names f := by
  have hroot : !isIgnoredScope root root := by
    have h := isIgnoredScope_descend root (List.forall_mem_nil Path.IsName)
    simpa [Path.descend_nil] using h
  have hkept {f : Found} {names : List OsText} (hnames : ∀ name ∈ names, Path.IsName name)
      (hpath : f.path = Path.descend root names) :
      .ok f ∈ files.walk options.walk (fun path => !isIgnoredScope path root) root ↔
        .ok f ∈ fullWalk files options root ∧
          ∀ name ∈ names, Text.lowercase name.display ∉ ignoredScopes := by
    rw [hwalk.filtered _ _ root f names hroot hnames hpath,
      forall_not_isIgnoredScope_iff root hnames]
    rfl
  rw [scan, List.mem_mergeSort, List.mem_filterMap]
  constructor
  · rintro ⟨_, hfound, hwanted⟩
    obtain ⟨f, rfl, rfl, hfile, hresolved, hsmall, hminified⟩ := wanted?_eq_some_iff.1 hwanted
    obtain ⟨names, hnames, hpath⟩ := hwalk.below _ _ _ _ hfound
    obtain ⟨hfull, houtside⟩ := (hkept hnames hpath).1 hfound
    exact ⟨names, f, hnames, hpath, rfl, hfull,
      ⟨hfile, houtside, hresolved, hsmall, isMinified_eq_false_iff.1 hminified⟩⟩
  · rintro ⟨names, f, hnames, hpath, rfl, hfull, hwanted⟩
    refine ⟨.ok f, (hkept hnames hpath).2 ⟨hfull, hwanted.outside⟩, ?_⟩
    exact wanted?_eq_some_iff.2 ⟨f, rfl, rfl, hwanted.file, hwanted.resolved, hwanted.small,
      isMinified_eq_false_iff.2 hwanted.unbundled⟩

end Documented

structure ScansExactly (files : FileSystem) (r : Registry) (options : ScanOptions)
    (root : OsText) : Prop where
  ordered : (scan files r options root).Pairwise fun p q => Path.cmp p q = .lt
  mem_iff : ∀ path, path ∈ scan files r options root ↔
    ∃ names f, (∀ name ∈ names, Path.IsName name) ∧ path = Path.descend root names ∧
      f.path = path ∧ .ok f ∈ fullWalk files options root ∧ Wanted r options names f
  below_root : ∀ names, (∀ name ∈ names, Path.IsName name) →
    (isIgnoredScope (Path.descend root names) root ↔
      ∃ name ∈ names, Text.lowercase name.display ∈ ignoredScopes)
  /-- Leaving ignored scopes unread is the same as dropping their files afterwards. -/
  pruned_eq_filter : scan files r options root =
    (((fullWalk files options root).filterMap (wanted? r options)).filter
      (!isIgnoredScope · root)).mergeSort Path.le

/-- A scan lists the wanted files of the full walk and no others, and it loses nothing by not
looking into ignored scopes. -/
theorem scan_exact (hwalk : files.walk.Documented) (r : Registry) (options : ScanOptions)
    (root : OsText) : ScansExactly files r options root where
  ordered := pairwise_scan hwalk.once r options root
  mem_iff := fun _ => mem_scan_iff hwalk
  below_root := fun _ => isIgnoredScope_descend root
  pruned_eq_filter := by
    refine (pairwise_scan hwalk.once r options root).eq_of_mem_iff
      (Path.pairwise_mergeSort ((pairwise_wanted hwalk.once _).filter _)) ?_
    intro path
    rw [mem_scan_iff hwalk, List.mem_mergeSort, List.mem_filter, List.mem_filterMap]
    constructor
    · rintro ⟨names, f, hnames, rfl, hpath, hfull, hwanted⟩
      refine ⟨⟨.ok f, hfull, ?_⟩, ?_⟩
      · exact wanted?_eq_some_iff.2 ⟨f, rfl, hpath, hwanted.file, hwanted.resolved, hwanted.small,
          isMinified_eq_false_iff.2 hwanted.unbundled⟩
      · rw [Bool.not_eq_true', ← Bool.not_eq_true, isIgnoredScope_descend root hnames]
        simpa using hwanted.outside
    · rintro ⟨⟨_, hfull, hwanted⟩, hscope⟩
      obtain ⟨f, rfl, rfl, hfile, hresolved, hsmall, hminified⟩ := wanted?_eq_some_iff.1 hwanted
      obtain ⟨names, hnames, hpath⟩ := hwalk.below _ _ _ _ hfull
      rw [hpath, Bool.not_eq_true', ← Bool.not_eq_true,
        isIgnoredScope_descend root hnames] at hscope
      exact ⟨names, f, hnames, hpath, rfl, hfull,
        ⟨hfile, by simpa using hscope, hresolved, hsmall, isMinified_eq_false_iff.1 hminified⟩⟩

end Scan

namespace Nested

/-- A root called like an ignored scope, with such a scope, a hidden directory, a bundle and a large
file inside. -/
def tree : Tree :=
  .ofFiles [("build/lib/e.py", ⟨#[121]⟩), ("build/lib/Dist/b.py", ⟨#[121]⟩),
    ("build/.h/d.py", ⟨#[]⟩), ("build/c.Min.js", ⟨#[59]⟩), ("build/f.py", ⟨#[120, 61, 49]⟩),
    ("build/a.py", ⟨#[120, 10]⟩)]

def files : FileSystem := tree.system leaveHidden

theorem files_documented : files.walk.Documented :=
  Tree.documented_walk (Tree.wellFormed_ofFiles _) leaveHidden

end Nested

theorem scan_exact_nested :
    Nested.files.walk.Documented ∧
      scan Nested.files {} { maxFileBytes := 2 } "build" =
        [.ofString "build/a.py", .ofString "build/lib/e.py"] := by
  have hexact := scan_exact Nested.files_documented {} { maxFileBytes := 2 } "build"
  have hwanted : ((fullWalk Nested.files { maxFileBytes := 2 } "build").filterMap
      (wanted? {} { maxFileBytes := 2 })).filter (!isIgnoredScope · "build") =
        [.ofString "build/lib/e.py", .ofString "build/a.py"] := by decide +kernel
  refine ⟨Nested.files_documented, hexact.ordered.eq_of_mem_iff (by decide +kernel) ?_⟩
  intro path
  rw [hexact.pruned_eq_filter, hwanted, List.mem_mergeSort]
  simp [or_comm]

namespace Long

def content : ByteArray := ⟨#[120, 32, 61, 32, 49, 10]⟩

def tree : Tree := .ofFiles [("src/generated.py", content)]

theorem tree_wellFormed : tree.WellFormed := Tree.wellFormed_ofFiles _

def files : FileSystem := tree.system leaveHidden

def place : Place :=
  ⟨.directory [("generated.py", .file content)], [(.directory tree.top, "src")]⟩

section Padded

variable {n : Nat} (hroot : 3 + n ≤ Tree.pathLimit)

include hroot

theorem locate_padded : tree.locate (Path.padded "src" n) = .ok place :=
  Tree.locate_padded (show tree.locate "src" = .ok place from rfl) rfl hroot

theorem found_mem_fullWalk (options : ScanOptions) :
    .ok ((Entry.file content).found (Path.child (Path.padded "src" n) "generated.py")) ∈
      fullWalk files options (Path.padded "src" n) := by
  have hleads : Leads (leaveHidden options.walk (Path.padded "src" n)) (Path.padded "src" n) []
      place.entry ["generated.py"] (.file content) := by
    refine .entry ?_ (List.mem_singleton_self _) ?_ .here
    · rw [Tree.fits, Path.length_padded]
      exact decide_eq_true hroot
    · exact Bool.and_false _
  refine (Tree.mem_walk tree_wellFormed leaveHidden).2 (.inr ⟨?_, place, _, _, locate_padded hroot,
    hleads, fun _ _ _ => rfl, rfl⟩)
  rw [Tree.isStandardInput, Path.components_padded (by decide)]
  decide

theorem mem_scan_padded (hfile : Tree.pathLimit < 3 + n + 12) (options : ScanOptions) :
    Path.child (Path.padded "src" n) "generated.py" ∈
      scan files {} options (Path.padded "src" n) := by
  have hname : Path.fileName? (Path.child (Path.padded "src" n) "generated.py") =
      some (.ofString "generated.py") := Path.fileName?_child _ (by decide)
  refine (mem_scan_iff (Tree.documented_walk tree_wellFormed leaveHidden)).2
    ⟨["generated.py"], _, by decide, rfl, rfl, found_mem_fullWalk hroot options, rfl, by decide,
      ?_, ?_, ?_⟩
  · simp only [Registry.resolve?, Path.extension?, Entry.found, hname]
    decide
  · intro size hsize
    have hlong := Path.length_le_child (Path.padded "src" n) "generated.py"
    rw [Path.length_padded, show (OsText.ofString "src").bytes.length = 3 by decide,
      show (OsText.ofString "generated.py").bytes.length = 12 by decide] at hlong
    have hfits : Tree.fits (Path.child (Path.padded "src" n) "generated.py") = false :=
      decide_eq_false (by omega)
    simp [Entry.found, hfits] at hsize
  · refine isMinified_eq_false_iff.1 ?_
    simp only [isMinified, Entry.found, hname]
    decide +kernel

end Padded

end Long

/-- A file that is larger than the limit is listed where its path is too long to ask for its
size. -/
theorem scan_lists_unmeasured :
    ∃ path ∈ scan Long.files {} { maxFileBytes := 3 } (Path.padded "src" 4085),
      Path.components path = Path.components "src/generated.py" ∧
        Long.files.info "src/generated.py" = .ok ⟨false, 6⟩ := by
  have hroot : 3 + 4085 ≤ Tree.pathLimit := by decide
  refine ⟨_, Long.mem_scan_padded hroot (by decide) { maxFileBytes := 3 }, ?_, rfl⟩
  rw [Path.components_child _ (by decide), Path.components_padded (by decide)]
  decide

end CodeChunks.Files
