import CodeChunks.Proofs.Batch.Directory
import CodeChunks.Proofs.Chunker.DocumentOrder

namespace CodeChunks

namespace Files

/-- What cannot be asked for its size cannot be read either, and for the same reason. -/
def FileSystem.SameErrors (files : FileSystem) : Prop :=
  ∀ path e, files.info path = .error e → files.read path = .error e

theorem FileSystem.SameErrors.readText {files : FileSystem} (h : files.SameErrors) {path : OsText}
    {e : IoError} (hsize : files.sizeOf path = .error e) : files.readText path = .error e := by
  rw [sizeOf] at hsize
  cases hinfo : files.info path with
  | error e' =>
    rw [hinfo] at hsize
    cases hsize
    rw [FileSystem.readText, h path e hinfo]
    rfl
  | ok info =>
    rw [hinfo] at hsize
    cases hsize

theorem Tree.sameErrors_system (t : Tree) (exclusion : Exclusion) :
    (t.system exclusion).SameErrors := by
  intro path e h
  have hinfo : t.info path = .error e := h
  show t.read path = .error e
  rw [Tree.info] at hinfo
  cases hplace : t.locate path with
  | error e' =>
    rw [hplace] at hinfo
    cases hinfo
    rw [Tree.read, hplace]
    rfl
  | ok place =>
    rw [hplace] at hinfo
    cases hinfo

end Files

theorem Chunker.resolve_error {c : Chunker} {path : OsText} {e : ChunkError}
    (h : c.resolve path = .error e) : ∃ language, e = .unsupportedLanguage language := by
  cases hpolicy : c.registry.resolve? path with
  | none =>
    rw [resolve_of_none hpolicy] at h
    cases h
    exact ⟨_, rfl⟩
  | some policy =>
    rw [resolve_of_some hpolicy] at h
    split at h
    · cases h
    · cases h
      exact ⟨_, rfl⟩

theorem Chunker.filePath_of_mem_chunkText {c : Chunker} {lib : ParserLibrary} {policy : Policy}
    {filePath source : String} {chunks : List Chunk}
    (h : c.chunkText lib policy filePath source = .ok chunks) {chunk : Chunk}
    (hchunk : chunk ∈ chunks) : chunk.metadata.filePath = filePath := by
  cases hparse : lib.parse policy source with
  | error e =>
    rw [chunkText, hparse] at h
    cases h
  | ok root =>
    rw [chunkText_of_parse hparse, chunksOf_eq_mapIdx] at h
    cases h
    obtain ⟨i, hi, rfl⟩ := List.mem_mapIdx.1 hchunk
    rfl

namespace Batch

open Files

section Alone

variable {c : Chunker} {files : FileSystem} {lib : ParserLibrary} {path : OsText}
  {source : String} {policy : Policy}

theorem chunkFile_of_resolve_error {e : ChunkError} (h : c.resolve path = .error e) :
    chunkFile c files lib path = .error e := by
  rw [chunkFile, h]
  rfl

theorem chunkFile_of_readText_error {e : IoError} (h : c.resolve path = .ok policy)
    (hread : files.readText path = .error e) : chunkFile c files lib path = .error (.io e) := by
  rw [chunkFile, h, hread]
  rfl

theorem chunkFile_of_readText (h : c.resolve path = .ok policy)
    (hread : files.readText path = .ok source) :
    chunkFile c files lib path = c.chunkText lib policy path.display source := by
  rw [chunkFile, h, hread]
  rfl

end Alone

/-- A processor and its chunker come to the same end with a file. -/
inductive SameEnd (p : Processor) (files : FileSystem) (lib : ParserLibrary) (path : OsText) : Prop
  | chunked {policy : Policy} {chunks : List Chunk} (hresolve : p.chunker.resolve path = .ok policy)
      (halone : chunkFile p.chunker files lib path = .ok chunks)
      (hbatch : p.processFile files lib path = .ok ⟨path.display, some policy.language, chunks⟩)
      (hdisplayed : ∀ chunk ∈ chunks, chunk.metadata.filePath = path.display)
  | unread {e : IoError} (halone : chunkFile p.chunker files lib path = .error (.io e))
      (hbatch : p.processFile files lib path = .error (.io e))
  | refused {e : ChunkError} (hcause : ∀ io, e ≠ .io io)
      (halone : chunkFile p.chunker files lib path = .error e)
      (hbatch : p.processFile files lib path = .error (.chunker e))

namespace Processor

variable {p : Processor} {files : FileSystem} {lib : ParserLibrary} {path : OsText}
  {policy : Policy}

def Within (p : Processor) (files : FileSystem) (path : OsText) : Prop :=
  ∀ size, files.sizeOf path = .ok size → size ≤ p.maxFileBytes

theorem Within.readSource_eq (h : p.Within files path) (herrors : files.SameErrors) :
    p.readSource files path = (files.readText path).mapError BatchError.io := by
  cases hsize : files.sizeOf path with
  | error e =>
    rw [readSource_of_sizeOf_error hsize, herrors.readText hsize]
    rfl
  | ok size =>
    rw [readSource_of_sizeOf hsize, if_neg (Nat.not_lt.2 (h size hsize))]

theorem sameEnd_of_resolve_error {e : ChunkError} (hresolve : p.chunker.resolve path = .error e) :
    SameEnd p files lib path := by
  refine .refused ?_ (chunkFile_of_resolve_error hresolve)
    (processFile_of_failed (run_of_resolve_error hresolve))
  intro io
  obtain ⟨language, rfl⟩ := Chunker.resolve_error hresolve
  exact ChunkError.noConfusion

theorem Reads.sameEnd {source : String} (h : p.Reads files path policy source)
    (hread : files.readText path = .ok source) : SameEnd p files lib path := by
  have halone : chunkFile p.chunker files lib path =
      p.chunker.chunkText lib policy path.display source := chunkFile_of_readText h.1 hread
  cases hchunk : p.chunker.chunkText lib policy path.display source with
  | error e =>
    refine .refused ?_ (halone.trans hchunk) (processFile_of_failed (h.run_of_error hchunk))
    intro io
    obtain ⟨reason, line, column, rfl⟩ | ⟨reason, rfl⟩ := Chunker.chunkText_error hchunk
    · exact ChunkError.noConfusion
    · exact ChunkError.noConfusion
  | ok chunks =>
    refine .chunked h.1 (halone.trans hchunk) (processFile_of_chunked (h.run_of_ok hchunk)) ?_
    intro chunk hmem
    exact Chunker.filePath_of_mem_chunkText hchunk hmem

theorem Within.sameEnd (h : p.Within files path) (herrors : files.SameErrors) :
    SameEnd p files lib path := by
  cases hresolve : p.chunker.resolve path with
  | error e => exact sameEnd_of_resolve_error hresolve
  | ok policy =>
    have hsource := h.readSource_eq herrors
    cases hread : files.readText path with
    | error e =>
      rw [hread] at hsource
      exact .unread (chunkFile_of_readText_error hresolve hread)
        (processFile_of_failed (run_of_readSource_error hresolve hsource))
    | ok source =>
      rw [hread] at hsource
      exact Reads.sameEnd ⟨hresolve, hsource⟩ hread

theorem processFile_of_large {size : Nat} (hresolve : p.chunker.resolve path = .ok policy)
    (hsize : files.sizeOf path = .ok size) (hlarge : p.maxFileBytes < size) :
    p.processFile files lib path = .error (.fileTooLarge path.display size p.maxFileBytes) := by
  have hread := readSource_of_sizeOf (p := p) hsize
  rw [if_pos hlarge] at hread
  exact processFile_of_failed (run_of_readSource_error hresolve hread)

end Processor

theorem SameEnd.isOk_iff {p : Processor} {files : FileSystem} {lib : ParserLibrary} {path : OsText}
    (h : SameEnd p files lib path) :
    (p.processFile files lib path).isOk ↔ (chunkFile p.chunker files lib path).isOk := by
  cases h with
  | chunked _ halone hbatch _ => rw [halone, hbatch]; rfl
  | unread halone hbatch => rw [halone, hbatch]; rfl
  | refused _ halone hbatch => rw [halone, hbatch]; rfl

/-- A processor made from settings without a fault comes to the same end as its chunker with every
file that is not too large. Too large is only a file with a language, and a file without one is
skipped, be it there or not. -/
theorem processFile_sameEnd {settings : Settings} (hsettings : settings.validate = .ok ())
    (setting : Option String) (processors : Nat) :
    ∃ p, Processor.new settings setting processors = .ok p ∧
      ∀ (files : FileSystem) (lib : ParserLibrary) (path : OsText),
        (files.SameErrors → (∀ size, files.sizeOf path = .ok size → size ≤ settings.maxFileBytes) →
          SameEnd p files lib path ∧
            ((p.processFile files lib path).isOk ↔ (chunkFile p.chunker files lib path).isOk)) ∧
        (∀ policy size, p.chunker.resolve path = .ok policy → files.sizeOf path = .ok size →
          settings.maxFileBytes < size →
          p.processFile files lib path =
            .error (.fileTooLarge path.display size settings.maxFileBytes)) ∧
        ∀ e, p.chunker.resolve path = .error e →
          p.processFile files lib path = .error (.chunker e) ∧ (BatchError.chunker e).isSkip := by
  refine ⟨_, Processor.new_of_validate hsettings setting processors, ?_⟩
  intro files lib path
  refine ⟨?_, ?_, ?_⟩
  · intro herrors hwithin
    exact ⟨Processor.Within.sameEnd hwithin herrors,
      SameEnd.isOk_iff (Processor.Within.sameEnd hwithin herrors)⟩
  · intro policy size hresolve hsize hlarge
    exact Processor.processFile_of_large hresolve hsize hlarge
  · intro e hresolve
    refine ⟨Processor.processFile_of_failed (Processor.run_of_resolve_error hresolve), ?_⟩
    obtain ⟨language, rfl⟩ := Chunker.resolve_error hresolve
    rfl

namespace Measured

def settings : Settings := { chunker := { supportedLanguages := ["Python"] }, maxFileBytes := 2 }

def files : FileSystem :=
  (Tree.ofFiles [("src/a.py", ⟨#[120, 10]⟩), ("src/b.py", ⟨#[120, 59, 10]⟩),
    ("src/c.py", ⟨#[255]⟩)]).system leaveHidden

def parses : ParserLibrary := .ofTable fun _ source =>
  some (.clean source true "module" [] 0 2 [])

end Measured

open Measured in
theorem processFile_sameEnd_measured :
    settings.validate = .ok () ∧ files.SameErrors ∧
      ∃ p, Processor.new settings none 4 = .ok p ∧ SameEnd p files parses "src/a.py" ∧
        SameEnd p files parses "src/c.py" ∧ SameEnd p files parses "src/d.py" ∧
        p.processFile files parses "src/b.py" = .error (.fileTooLarge "src/b.py" 3 2) ∧
        p.processFile files parses "src/b.js" =
          .error (.chunker (.unsupportedLanguage "javascript")) := by
  have hvalid : settings.validate = .ok () := by decide
  have herrors : files.SameErrors := Tree.sameErrors_system _ leaveHidden
  obtain ⟨p, hnew, h⟩ := processFile_sameEnd hvalid none 4
  cases (Processor.new_of_validate hvalid none 4).symm.trans hnew
  have htext : files.sizeOf "src/a.py" = .ok 2 := by decide +kernel
  have hbytes : files.sizeOf "src/c.py" = .ok 1 := by decide +kernel
  have hmissing : files.sizeOf "src/d.py" = .error .notFound := by decide +kernel
  refine ⟨hvalid, herrors, _, hnew, ?_, ?_, ?_, ?_, ?_⟩
  · refine ((h files parses "src/a.py").1 herrors fun size hsize => ?_).1
    cases htext.symm.trans hsize
    decide
  · refine ((h files parses "src/c.py").1 herrors fun size hsize => ?_).1
    cases hbytes.symm.trans hsize
    decide
  · refine ((h files parses "src/d.py").1 herrors fun size hsize => ?_).1
    cases hmissing.symm.trans hsize
  · exact (h files parses "src/b.py").2.1 (.ofLanguage .python) 3 (by decide +kernel)
      (by decide +kernel) (by decide)
  · exact ((h files parses "src/b.js").2.2 _ (by decide +kernel)).1

end Batch

end CodeChunks
