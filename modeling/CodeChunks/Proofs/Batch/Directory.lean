import CodeChunks.Proofs.Batch.Accounts
import CodeChunks.Proofs.Chunker.Resolution
import CodeChunks.Proofs.Files.Scan
import CodeChunks.Proofs.Syntax.Layout

/-!
Batches over a directory. The scan and the processor look at a file apart from each other, for its
policy and for its size. Main statement: they agree, so that no file of the scan is found too large,
and none is skipped but for its language.
-/

namespace CodeChunks

/-- The path has a language, by its extension or an extra one, and languages are named, but not
that one. -/
def Config.Excludes (c : Config) (path : OsText) : Prop :=
  ∃ policy, c.registry.resolve? path = some policy ∧ c.supportedLanguages ≠ [] ∧
    ∀ name ∈ c.supportedLanguages, Language.ofName? name ≠ some policy.language

theorem ParserLibrary.accept_error {policy : Policy} {tree : Option Syntax.Node} {e : ChunkError}
    (h : accept policy tree = .error e) : ∃ reason line column, e = .parse reason line column := by
  cases tree with
  | none =>
    cases h
    exact ⟨_, _, _, rfl⟩
  | some root =>
    rw [accept] at h
    split at h
    · cases h
      exact ⟨_, _, _, rfl⟩
    · cases h

theorem Chunker.chunkText_error {c : Chunker} {lib : ParserLibrary} {policy : Policy}
    {filePath source : String} {e : ChunkError}
    (h : c.chunkText lib policy filePath source = .error e) :
    (∃ reason line column, e = .parse reason line column) ∨
      ∃ reason, e = .grammarRefused reason := by
  cases hrefusal : lib.refusal? policy.grammar with
  | some reason =>
    rw [chunkText, ParserLibrary.parse, hrefusal] at h
    cases h
    exact .inr ⟨_, rfl⟩
  | none =>
    rw [chunkText, ParserLibrary.parse, hrefusal] at h
    cases hparse : ParserLibrary.accept policy (lib.tree? policy.grammar [] source) with
    | error e' =>
      simp only [hparse] at h
      cases h
      exact .inl (ParserLibrary.accept_error hparse)
    | ok root =>
      simp only [hparse] at h
      cases h

namespace Batch

open Files

namespace Processor

variable {p : Processor} {files : FileSystem} {lib : ParserLibrary} {path : OsText}

inductive FailsWith (p : Processor) (files : FileSystem) (path : OsText) : BatchError → Prop
  | unresolved {e : ChunkError} (hresolve : p.chunker.resolve path = .error e) :
      FailsWith p files path (.chunker e)
  | unreadable {policy : Policy} (hresolve : p.chunker.resolve path = .ok policy) (e : IoError) :
      FailsWith p files path (.io e)
  | tooLarge {policy : Policy} (hresolve : p.chunker.resolve path = .ok policy) {size : Nat}
      (hsize : files.sizeOf path = .ok size) (hlimit : p.maxFileBytes < size) :
      FailsWith p files path (.fileTooLarge path.display size p.maxFileBytes)
  | unparsed {policy : Policy} (hresolve : p.chunker.resolve path = .ok policy) (reason : String)
      (line column : Nat) : FailsWith p files path (.chunker (.parse reason line column))
  | refused {policy : Policy} (hresolve : p.chunker.resolve path = .ok policy) (reason : String) :
      FailsWith p files path (.chunker (.grammarRefused reason))

theorem failsWith_of_readSource {policy : Policy} (hresolve : p.chunker.resolve path = .ok policy)
    {e : BatchError} (h : p.readSource files path = .error e) : p.FailsWith files path e := by
  cases hsize : files.sizeOf path with
  | error io =>
    rw [readSource_of_sizeOf_error hsize] at h
    cases h
    exact .unreadable hresolve io
  | ok size =>
    rw [readSource_of_sizeOf hsize] at h
    split at h
    next hlimit =>
      cases h
      exact .tooLarge hresolve hsize hlimit
    next =>
      cases htext : files.readText path with
      | error io =>
        rw [htext] at h
        cases h
        exact .unreadable hresolve io
      | ok text =>
        rw [htext] at h
        cases h

theorem failsWith_of_processFile {e : BatchError} (h : p.processFile files lib path = .error e) :
    p.FailsWith files path e := by
  have hran := p.ran_run files lib path
  cases hrun : p.run files lib path with
  | chunked entry lines =>
    rw [processFile_of_chunked hrun] at h
    cases h
  | failed language e' =>
    rw [processFile_of_failed hrun] at h
    cases h
    rw [hrun] at hran
    cases hran with
    | unresolved hresolve => exact .unresolved hresolve
    | unread hresolve hread => exact failsWith_of_readSource hresolve hread
    | refused hreads hchunk =>
      obtain ⟨reason, line, column, rfl⟩ | ⟨reason, rfl⟩ := Chunker.chunkText_error hchunk
      · exact .unparsed hreads.1 reason line column
      · exact .refused hreads.1 reason

theorem processFile_ne_fileTooLarge
    (hsize : ∀ size, files.sizeOf path = .ok size → size ≤ p.maxFileBytes) (shown : String)
    (size limit : Nat) :
    p.processFile files lib path ≠ .error (.fileTooLarge shown size limit) := by
  intro h
  cases failsWith_of_processFile h with
  | tooLarge _ hfile hlimit => exact absurd (hsize size hfile) (Nat.not_le.2 hlimit)

theorem isSkip_processFile_iff {policy : Policy}
    (hpolicy : p.chunker.registry.resolve? path = some policy) :
    Told.isSkip (p.processFile files lib path) ↔
      p.chunker.config.allows policy.language = false := by
  have hresolve := Chunker.resolve_of_some hpolicy
  cases hallows : p.chunker.config.allows policy.language with
  | false =>
    rw [hallows, if_neg Bool.false_ne_true] at hresolve
    rw [processFile_of_failed (run_of_resolve_error hresolve)]
    simp [BatchError.isSkip, ChunkError.isUnsupported]
  | true =>
    rw [hallows, if_pos rfl] at hresolve
    cases htold : p.processFile files lib path with
    | ok entry => simp
    | error e =>
      cases failsWith_of_processFile htold with
      | unresolved herror => cases hresolve.symm.trans herror
      | _ => simp [BatchError.isSkip, ChunkError.isUnsupported]

theorem isSkip_iff_excludes {c : Config} (hp : p.chunker = ⟨c, c.registry⟩)
    (hpath : (c.registry.resolve? path).isSome) :
    Told.isSkip (p.processFile files lib path) ↔ c.Excludes path := by
  obtain ⟨policy, hpolicy⟩ := Option.isSome_iff_exists.1 hpath
  rw [isSkip_processFile_iff (by rw [hp]; exact hpolicy), hp, Config.allows_eq_false_iff]
  constructor
  · intro h
    exact ⟨policy, hpolicy, h⟩
  · rintro ⟨policy', hpolicy', h⟩
    cases hpolicy.symm.trans hpolicy'
    exact h

theorem filePath_entryOf (path : OsText) :
    (p.entryOf files lib path).filePath = path.display := by
  have hran := p.ran_run files lib path
  rw [← entry_run]
  generalize p.run files lib path = outcome at hran ⊢
  cases hran <;> rfl

theorem exists_new {settings : Settings} (h : settings.validate = .ok ())
    (setting : Option String) (processors : Nat) :
    ∃ p, Processor.new settings setting processors = .ok p ∧
      p.chunker = ⟨settings.chunker, settings.chunker.registry⟩ :=
  ⟨_, new_of_validate h setting processors, rfl⟩

theorem scanDirectory_of_isDirectory {root : OsText} (h : files.isDirectory root) :
    p.scanDirectory files root =
      .ok (scan files p.chunker.registry { maxFileBytes := p.maxFileBytes } root) := by
  rw [scanDirectory, if_pos h]

theorem processDirectory_of_scan {root : OsText} {paths : List OsText}
    (h : p.scanDirectory files root = .ok paths) :
    p.processDirectory files lib root = .ok (p.processBatch files lib paths) := by
  rw [processDirectory, h]
  rfl

theorem sizeOf_le_of_mem_scan (hsizes : files.Measured) {r : Registry} {options : ScanOptions}
    {root : OsText} (h : path ∈ scan files r options root) {size : Nat}
    (hsize : files.sizeOf path = .ok size) : size ≤ options.maxFileBytes := by
  obtain ⟨keep, f, hfound, rfl, hfile, -, hsmall⟩ := exists_found_of_mem_scan h
  cases hinfo : files.info f.path with
  | error e =>
    rw [FileSystem.sizeOf, hinfo] at hsize
    cases hsize
  | ok info =>
    rw [FileSystem.sizeOf, hinfo] at hsize
    cases hsize
    exact hsmall info.size (hsizes _ _ _ f info hfound hfile hinfo)

end Processor

structure EntryTold (settings : Settings) (p : Processor) (files : FileSystem)
    (lib : ParserLibrary) (o : Output) (path : OsText) (entry : FileChunks) : Prop where
  shown : entry.filePath = path.display
  resolved : (settings.chunker.registry.resolve? path).isSome
  not_tooLarge : ∀ shown size limit,
    p.processFile files lib path ≠ .error (.fileTooLarge shown size limit)
  skipped_iff : Told.isSkip (p.processFile files lib path) ↔ settings.chunker.Excludes path
  others : ¬settings.chunker.Excludes path → p.processFile files lib path = .ok entry ∨
    ∃ e, p.processFile files lib path = .error e ∧ entry.chunks = [] ∧
      path.display ++ ": " ++ e.message ∈ o.stats.errors

/-- What the output of a directory tells of the paths that the scan has found. The paths themselves
are in order; where they are texts, so are the paths that the entries show. -/
structure DirectoryTold (settings : Settings) (p : Processor) (files : FileSystem)
    (lib : ParserLibrary) (paths : List OsText) (o : Output) : Prop where
  ordered : paths.Pairwise fun p q => Path.cmp p q = .lt
  entries : List.Forall₂ (EntryTold settings p files lib o) paths o.files
  ordered_shown : (∀ path ∈ paths, path.text?.isSome) →
    o.files.Pairwise fun a b => Path.cmp a.filePath b.filePath = .lt
  skipped : o.stats.skipped =
    paths.countP fun path => Told.isSkip (p.processFile files lib path)
  none_skipped : settings.chunker.supportedLanguages = [] → o.stats.skipped = 0

section Told

variable {settings : Settings} {p : Processor} {files : FileSystem} {lib : ParserLibrary}
  {paths : List OsText} {path : OsText}

theorem entryTold_of_mem (hp : p.chunker = ⟨settings.chunker, settings.chunker.registry⟩)
    (hpath : path ∈ paths) (hresolved : (settings.chunker.registry.resolve? path).isSome)
    (hsize : ∀ size, files.sizeOf path = .ok size → size ≤ p.maxFileBytes) :
    EntryTold settings p files lib (p.processBatch files lib paths) path
      (p.entryOf files lib path) where
  shown := Processor.filePath_entryOf path
  resolved := hresolved
  not_tooLarge := Processor.processFile_ne_fileTooLarge hsize
  skipped_iff := Processor.isSkip_iff_excludes hp hresolved
  others := by
    intro hexcluded
    have hskip : ¬Told.isSkip (p.processFile files lib path) :=
      mt (Processor.isSkip_iff_excludes hp hresolved).1 hexcluded
    unfold Processor.entryOf
    cases htold : p.processFile files lib path with
    | ok entry => exact .inl rfl
    | error e =>
      rw [htold, Told.isSkip_error] at hskip
      refine .inr ⟨e, rfl, rfl, ?_⟩
      rw [(Accounts.processBatch p files lib paths).errors, List.mem_filterMap]
      exact ⟨path, hpath, by simp [htold, hskip]⟩

theorem DirectoryTold.processBatch (hp : p.chunker = ⟨settings.chunker, settings.chunker.registry⟩)
    (hordered : paths.Pairwise fun p q => Path.cmp p q = .lt)
    (hresolved : ∀ path ∈ paths, (settings.chunker.registry.resolve? path).isSome)
    (hsize : ∀ path ∈ paths, ∀ size, files.sizeOf path = .ok size → size ≤ p.maxFileBytes) :
    DirectoryTold settings p files lib paths (p.processBatch files lib paths) where
  ordered := hordered
  entries := by
    rw [Processor.processBatch_files, List.forall₂_map_right_iff, List.forall₂_same]
    intro path hpath
    exact entryTold_of_mem hp hpath (hresolved path hpath) (hsize path hpath)
  ordered_shown := by
    intro htexts
    rw [Processor.processBatch_files, List.pairwise_map]
    refine hordered.imp_of_mem ?_
    intro a b ha hb hlt
    obtain ⟨s, hs⟩ := Option.isSome_iff_exists.1 (htexts a ha)
    obtain ⟨t, ht⟩ := Option.isSome_iff_exists.1 (htexts b hb)
    obtain rfl := OsText.text?_eq_some_iff.1 hs
    obtain rfl := OsText.text?_eq_some_iff.1 ht
    rwa [Processor.filePath_entryOf, Processor.filePath_entryOf, OsText.display_ofString,
      OsText.display_ofString]
  skipped := (Accounts.processBatch p files lib paths).skipped
  none_skipped := by
    intro hempty
    rw [(Accounts.processBatch p files lib paths).skipped, List.countP_eq_zero]
    intro path hpath hskip
    obtain ⟨policy, -, hne, -⟩ :=
      (Processor.isSkip_iff_excludes hp (hresolved path hpath)).1 hskip
    exact hne hempty

end Told

namespace Selected

def settings : Settings := { chunker := { supportedLanguages := ["Python"] }, maxFileBytes := 12 }

def source : String := "def f(): 0"

def tree : Tree :=
  .ofFiles [("src/a.py", source.toUTF8), ("src/b.js", ⟨#[59]⟩), ("src/c.py", ⟨#[255]⟩),
    ("src/d.py", "def f(): 0, 0".toUTF8), ("src/e.txt", ⟨#[]⟩)]

theorem tree_wellFormed : tree.WellFormed := Tree.wellFormed_ofFiles _

def files : FileSystem := tree.system leaveHidden

def root : Syntax.Node :=
  .clean source true "module" [] 0 10
    [.clean source true "function_definition" [] 0 10
      [.clean source true "identifier" ["name"] 4 5 []]]

def parses : ParserLibrary := .ofTable fun _ _ => some root

def paths : List OsText := ["src/a.py", "src/b.js", "src/c.py"]

end Selected

end Batch

end CodeChunks
