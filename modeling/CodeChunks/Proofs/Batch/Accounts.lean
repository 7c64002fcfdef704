import CodeChunks.Proofs.Batch.Outcomes
import CodeChunks.Proofs.Entries
import Mathlib.Data.List.Induction

namespace CodeChunks.Batch

open Files

abbrev Told := Except BatchError FileChunks

namespace Told

def isSkip : Told → Bool
  | .error (.chunker (.unsupportedLanguage _)) => true
  | _ => false

def failure? : Told → Option BatchError
  | .error (.chunker (.unsupportedLanguage _)) => none
  | .error e => some e
  | .ok _ => none

def language? : Told → Option Language
  | .ok entry => entry.language
  | .error _ => none

@[simp] theorem isOk_ok (entry : FileChunks) : Except.isOk (.ok entry : Told) = true := rfl

@[simp] theorem isSkip_ok (entry : FileChunks) : isSkip (.ok entry) = false := rfl

@[simp] theorem failure?_ok (entry : FileChunks) : failure? (.ok entry) = none := rfl

@[simp] theorem language?_ok (entry : FileChunks) : language? (.ok entry) = entry.language := rfl

@[simp] theorem isOk_error (e : BatchError) : Except.isOk (.error e : Told) = false := rfl

@[simp] theorem isSkip_error (e : BatchError) : isSkip (.error e) = e.isSkip := by
  cases e with
  | chunker error => cases error <;> rfl
  | _ => rfl

@[simp] theorem failure?_error (e : BatchError) :
    failure? (.error e) = if e.isSkip then none else some e := by
  cases e with
  | chunker error => cases error <;> rfl
  | _ => rfl

@[simp] theorem language?_error (e : BatchError) : language? (.error e) = none := rfl

end Told

namespace Processor

variable {p : Processor} {system : FileSystem} {lib : ParserLibrary} {path : OsText}
  {source : String} {entry : FileChunks}

theorem readText_of_readSource (h : p.readSource system path = .ok source) :
    system.readText path = .ok source := by
  cases hsize : system.sizeOf path with
  | error e =>
    rw [readSource_of_sizeOf_error hsize] at h
    cases h
  | ok size =>
    rw [readSource_of_sizeOf hsize] at h
    split at h
    · cases h
    · cases htext : system.readText path with
      | error e =>
        rw [htext] at h
        cases h
      | ok text =>
        rw [htext] at h
        cases h
        rfl

def lineCount? (p : Processor) (system : FileSystem) (lib : ParserLibrary) (path : OsText) :
    Option Nat :=
  (p.processFile system lib path).toOption.bind fun _ =>
    (system.readText path).toOption.map Text.lineCount

theorem lineCount?_of_ok (h : p.processFile system lib path = .ok entry)
    (hsource : system.readText path = .ok source) :
    p.lineCount? system lib path = some (Text.lineCount source) := by
  rw [lineCount?, h, hsource]
  rfl

theorem lineCount?_of_error {e : BatchError} (h : p.processFile system lib path = .error e) :
    p.lineCount? system lib path = none := by
  rw [lineCount?, h]
  rfl

end Processor

structure Accounts (p : Processor) (system : FileSystem) (lib : ParserLibrary) (paths : List OsText)
    (o : Output) : Prop where
  total : o.stats.files + o.stats.skipped + o.stats.failed = paths.length
  files : o.stats.files = paths.countP fun path => (p.processFile system lib path).isOk
  skipped : o.stats.skipped = paths.countP fun path => Told.isSkip (p.processFile system lib path)
  failed : o.stats.failed = o.stats.errors.length
  errors : o.stats.errors = paths.filterMap fun path =>
    (Told.failure? (p.processFile system lib path)).map fun e => path.display ++ ": " ++ e.message
  chunks : o.stats.chunks = (o.files.map fun entry => entry.chunks.length).sum
  totalLines : o.stats.totalLines = (paths.filterMap (p.lineCount? system lib)).sum
  languages : ∀ name, (o.stats.languages.get? name).getD 0 = paths.countP fun path =>
    (Told.language? (p.processFile system lib path)).map Language.name = some name
  languages_ne_zero : ∀ x ∈ o.stats.languages.toList, x.2 ≠ 0
  languages_sum : o.stats.languages.sum = o.stats.files

namespace Accounts

variable {p : Processor} {system : FileSystem} {lib : ParserLibrary} {paths : List OsText}
  {o : Output} {path : OsText}

theorem nil : Accounts p system lib [] ⟨[], {}⟩ where
  total := rfl
  files := rfl
  skipped := rfl
  failed := rfl
  errors := rfl
  chunks := rfl
  totalLines := rfl
  languages := fun _ => rfl
  languages_ne_zero := by simp [Entries.empty]
  languages_sum := rfl

theorem skip (h : Accounts p system lib paths o) {language : Option Language} {e : BatchError}
    (herror : p.processFile system lib path = .error e) (hskip : e.isSkip = true) :
    Accounts p system lib (paths ++ [path])
      ⟨o.files ++ [⟨path.display, language, []⟩], o.stats.addSkipped⟩ where
  total := by
    have htotal := h.total
    simp only [Stats.addSkipped, List.length_append, List.length_singleton]
    omega
  files := by simp [Stats.addSkipped, h.files, herror]
  skipped := by simp [Stats.addSkipped, h.skipped, herror, hskip]
  failed := h.failed
  errors := by simp [Stats.addSkipped, h.errors, herror, hskip]
  chunks := by simp [Stats.addSkipped, h.chunks]
  totalLines := by simp [Stats.addSkipped, h.totalLines, Processor.lineCount?_of_error herror]
  languages := by simp [Stats.addSkipped, h.languages, herror]
  languages_ne_zero := h.languages_ne_zero
  languages_sum := h.languages_sum

theorem fail (h : Accounts p system lib paths o) {language : Option Language} {e : BatchError}
    (herror : p.processFile system lib path = .error e) (hskip : e.isSkip = false) :
    Accounts p system lib (paths ++ [path])
      ⟨o.files ++ [⟨path.display, language, []⟩],
        o.stats.addError (path.display ++ ": " ++ e.message)⟩ where
  total := by
    have htotal := h.total
    simp only [Stats.addError, List.length_append, List.length_singleton]
    omega
  files := by simp [Stats.addError, h.files, herror]
  skipped := by simp [Stats.addError, h.skipped, herror, hskip]
  failed := by simp [Stats.addError, h.failed]
  errors := by simp [Stats.addError, h.errors, herror, hskip]
  chunks := by simp [Stats.addError, h.chunks]
  totalLines := by simp [Stats.addError, h.totalLines, Processor.lineCount?_of_error herror]
  languages := by simp [Stats.addError, h.languages, herror]
  languages_ne_zero := h.languages_ne_zero
  languages_sum := h.languages_sum

theorem chunk (h : Accounts p system lib paths o) {language : Language} {entry : FileChunks}
    {source : String} (hok : p.processFile system lib path = .ok entry)
    (hlanguage : entry.language = some language)
    (hsource : system.readText path = .ok source) :
    Accounts p system lib (paths ++ [path])
      ⟨o.files ++ [entry],
        (o.stats.addFile (Language.nameOrUnknown entry.language)
          (Text.lineCount source)).addChunks entry.chunks.length⟩ where
  total := by
    have htotal := h.total
    simp only [Stats.addFile, Stats.addChunks, List.length_append, List.length_singleton]
    omega
  files := by simp [Stats.addFile, Stats.addChunks, h.files, hok]
  skipped := by simp [Stats.addFile, Stats.addChunks, h.skipped, hok]
  failed := h.failed
  errors := by simp [Stats.addFile, Stats.addChunks, h.errors, hok]
  chunks := by simp [Stats.addFile, Stats.addChunks, h.chunks]
  totalLines := by
    simp [Stats.addFile, Stats.addChunks, h.totalLines, Processor.lineCount?_of_ok hok hsource]
  languages := by
    intro name
    have hname := h.languages name
    simp only [Stats.addFile, Stats.addChunks, Entries.modify, Entries.get?_insert,
      List.countP_append, List.countP_singleton, hok, Told.language?_ok, hlanguage, Option.map_some,
      Language.nameOrUnknown, Option.getD_some]
    by_cases heq : language.name = name
    · subst heq
      simp [hname]
    · simp [heq, hname]
  languages_ne_zero := by
    intro x hx
    rcases Entries.mem_insertInto hx with rfl | hx
    · exact Nat.succ_ne_zero _
    · exact h.languages_ne_zero x hx
  languages_sum := by
    have hsum := h.languages_sum
    have hinsert := Entries.sum_insert o.stats.languages (Language.nameOrUnknown entry.language)
      ((o.stats.languages.get? (Language.nameOrUnknown entry.language)).getD 0 + 1)
    simp only [Stats.addFile, Stats.addChunks, Entries.modify]
    omega

theorem concat (h : Accounts p system lib paths o) (path : OsText) :
    Accounts p system lib (paths ++ [path])
      ⟨o.files ++ [(p.run system lib path).entry path],
        (p.run system lib path).addTo path o.stats⟩ := by
  have hran := p.ran_run system lib path
  cases hrun : p.run system lib path with
  | chunked entry lines =>
    rw [hrun] at hran
    cases hran with
    | chunked hreads _ =>
      exact h.chunk (Processor.processFile_of_chunked hrun) rfl
        (Processor.readText_of_readSource hreads.2)
  | failed language e =>
    have herror := Processor.processFile_of_failed hrun
    cases hskip : e.isSkip with
    | true =>
      rw [Outcome.addTo, if_pos hskip]
      exact h.skip herror hskip
    | false =>
      rw [Outcome.addTo, hskip]
      exact h.fail herror hskip

theorem get?_unknown (h : Accounts p system lib paths o) :
    o.stats.languages.get? "unknown" = none := by
  cases hget : o.stats.languages.get? "unknown" with
  | none => rfl
  | some n =>
    have hcount := h.languages "unknown"
    have hnone : ∀ path ∈ paths,
        ¬(Told.language? (p.processFile system lib path)).map Language.name = some "unknown" := by
      intro path _ hname
      obtain ⟨language, -, hname⟩ := Option.map_eq_some_iff.1 hname
      cases language <;> simp [Language.name] at hname
    rw [hget, List.countP_eq_zero.2 (by simpa using hnone)] at hcount
    exact absurd hcount (h.languages_ne_zero _ (Entries.mem_toList_of_get? hget))

theorem processBatch (p : Processor) (system : FileSystem) (lib : ParserLibrary)
    (paths : List OsText) : Accounts p system lib paths (p.processBatch system lib paths) := by
  induction paths using List.reverseRecOn with
  | nil => exact Accounts.nil
  | append_singleton paths path ih =>
    rw [Processor.processBatch_concat]
    exact ih.concat path

end Accounts

/-- The stats of a batch account for its entries: each path is counted once, for what came of its
file. -/
theorem processBatch_accounts (p : Processor) (system : FileSystem) (lib : ParserLibrary)
    (paths : List OsText) :
    Accounts p system lib paths (p.processBatch system lib paths) ∧
      (p.processBatch system lib paths).stats.languages.get? "unknown" = none :=
  ⟨.processBatch p system lib paths, (Accounts.processBatch p system lib paths).get?_unknown⟩

end CodeChunks.Batch
