import CodeChunks.Batch.Processor

namespace CodeChunks.Batch

open Files

namespace Processor

variable {p : Processor} {files : FileSystem} {lib : ParserLibrary} {path : OsText}
  {source : String} {policy : Policy}

theorem new_of_validate {settings : Settings} (h : settings.validate = .ok ())
    (setting : Option String) (processors : Nat) :
    Processor.new settings setting processors =
      .ok ⟨⟨settings.chunker, settings.chunker.registry⟩, settings.maxFileBytes,
        .new (concurrency settings.concurrency setting processors)⟩ := by
  cases hconfig : settings.chunker.validate with
  | error e =>
    rw [Settings.validate, hconfig] at h
    cases h
  | ok u =>
    rw [Processor.new, h, Chunker.new, hconfig]
    rfl

theorem eq_of_new {settings : Settings} {setting : Option String} {processors : Nat}
    (h : Processor.new settings setting processors = .ok p) :
    p = ⟨⟨settings.chunker, settings.chunker.registry⟩, settings.maxFileBytes,
      .new (concurrency settings.concurrency setting processors)⟩ := by
  cases hvalid : settings.validate with
  | error e =>
    rw [Processor.new, hvalid] at h
    cases h
  | ok u => exact Except.ok.inj (h.symm.trans (new_of_validate hvalid setting processors))

theorem run_of_resolve_error {e : ChunkError} (h : p.chunker.resolve path = .error e) :
    p.run files lib path = .failed none (.chunker e) := by
  unfold run
  rw [h]

theorem run_of_readSource_error {e : BatchError} (h : p.chunker.resolve path = .ok policy)
    (hread : p.readSource files path = .error e) :
    p.run files lib path = .failed (some policy.language) e := by
  unfold run
  rw [h]
  simp only [hread]

theorem readSource_of_sizeOf_error {e : IoError} (h : files.sizeOf path = .error e) :
    p.readSource files path = .error (.io e) := by
  unfold readSource
  rw [h]
  rfl

theorem readSource_of_sizeOf {size : Nat} (h : files.sizeOf path = .ok size) :
    p.readSource files path =
      if p.maxFileBytes < size then .error (.fileTooLarge path.display size p.maxFileBytes)
      else (files.readText path).mapError BatchError.io := by
  unfold readSource
  rw [h]
  rfl

def Reads (p : Processor) (files : FileSystem) (path : OsText) (policy : Policy)
    (source : String) : Prop :=
  p.chunker.resolve path = .ok policy ∧ p.readSource files path = .ok source

theorem Reads.run_of_error {e : ChunkError} (h : p.Reads files path policy source)
    (hchunk : p.chunker.chunkText lib policy path.display source = .error e) :
    p.run files lib path = .failed (some policy.language) (.chunker e) := by
  unfold run
  rw [h.1]
  simp only [h.2, hchunk]

theorem Reads.run_of_ok {chunks : List Chunk} (h : p.Reads files path policy source)
    (hchunk : p.chunker.chunkText lib policy path.display source = .ok chunks) :
    p.run files lib path =
      .chunked ⟨path.display, some policy.language, chunks⟩ (Text.lineCount source) := by
  unfold run
  rw [h.1]
  simp only [h.2, hchunk]

/-- Where the work on a file can end. -/
inductive Ran (p : Processor) (files : FileSystem) (lib : ParserLibrary) (path : OsText) :
    Outcome → Prop
  | unresolved {e : ChunkError} (hresolve : p.chunker.resolve path = .error e) :
      Ran p files lib path (.failed none (.chunker e))
  | unread {policy : Policy} {e : BatchError} (hresolve : p.chunker.resolve path = .ok policy)
      (hread : p.readSource files path = .error e) :
      Ran p files lib path (.failed (some policy.language) e)
  | refused {policy : Policy} {source : String} {e : ChunkError}
      (hreads : p.Reads files path policy source)
      (hchunk : p.chunker.chunkText lib policy path.display source = .error e) :
      Ran p files lib path (.failed (some policy.language) (.chunker e))
  | chunked {policy : Policy} {source : String} {chunks : List Chunk}
      (hreads : p.Reads files path policy source)
      (hchunk : p.chunker.chunkText lib policy path.display source = .ok chunks) :
      Ran p files lib path
        (.chunked ⟨path.display, some policy.language, chunks⟩ (Text.lineCount source))

theorem ran_run (p : Processor) (files : FileSystem) (lib : ParserLibrary) (path : OsText) :
    Ran p files lib path (p.run files lib path) := by
  cases hresolve : p.chunker.resolve path with
  | error e =>
    rw [run_of_resolve_error hresolve]
    exact .unresolved hresolve
  | ok policy =>
    cases hread : p.readSource files path with
    | error e =>
      rw [run_of_readSource_error hresolve hread]
      exact .unread hresolve hread
    | ok source =>
      have hreads : p.Reads files path policy source := ⟨hresolve, hread⟩
      cases hchunk : p.chunker.chunkText lib policy path.display source with
      | error e =>
        rw [hreads.run_of_error hchunk]
        exact .refused hreads hchunk
      | ok chunks =>
        rw [hreads.run_of_ok hchunk]
        exact .chunked hreads hchunk

theorem processFile_of_chunked {entry : FileChunks} {lines : Nat}
    (h : p.run files lib path = .chunked entry lines) :
    p.processFile files lib path = .ok entry := by
  unfold processFile
  rw [h]

theorem processFile_of_failed {language : Option Language} {e : BatchError}
    (h : p.run files lib path = .failed language e) :
    p.processFile files lib path = .error e := by
  unfold processFile
  rw [h]

theorem language_of_failed {language : Option Language} {e : BatchError}
    (h : p.run files lib path = .failed language e) :
    language = (p.chunker.resolve path).toOption.map Policy.language := by
  have hran := p.ran_run files lib path
  rw [h] at hran
  cases hran with
  | unresolved hresolve => rw [hresolve]; rfl
  | unread hresolve _ => rw [hresolve]; rfl
  | refused hreads _ => rw [hreads.1]; rfl

/-- The entry of a file alone: that of its chunks, or an empty one with the language of the path. -/
def entryOf (p : Processor) (files : FileSystem) (lib : ParserLibrary) (path : OsText) :
    FileChunks :=
  match p.processFile files lib path with
  | .ok entry => entry
  | .error _ => ⟨path.display, (p.chunker.resolve path).toOption.map Policy.language, []⟩

theorem entry_run (path : OsText) :
    (p.run files lib path).entry path = p.entryOf files lib path := by
  unfold entryOf processFile
  cases h : p.run files lib path with
  | chunked entry lines => rfl
  | failed language e =>
    rw [language_of_failed h]
    rfl

theorem processBatch_files (paths : List OsText) :
    (p.processBatch files lib paths).files = paths.map (p.entryOf files lib) := by
  simp [processBatch, entry_run]

theorem processBatch_concat (paths : List OsText) (path : OsText) :
    p.processBatch files lib (paths ++ [path]) =
      ⟨(p.processBatch files lib paths).files ++ [(p.run files lib path).entry path],
        (p.run files lib path).addTo path (p.processBatch files lib paths).stats⟩ := by
  simp [processBatch]

end Processor

end CodeChunks.Batch
