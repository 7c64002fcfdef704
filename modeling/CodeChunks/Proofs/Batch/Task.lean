import CodeChunks.Proofs.Batch.Outcomes
import CodeChunks.Proofs.Batch.Permits
import CodeChunks.Proofs.Registry.Steps

/-!
The work on one file, cut where another task may come in between: at each look at the files, each
access to the registry and each access to the limiter. A step keeps a task on the way to the outcome
of its file, whatever the others have done to what is shared, and brings it nearer to its end.
-/

namespace CodeChunks.Batch

open Files Syntax

structure Shared where
  limiter : Limiter
  registry : Registry
  memory : Memory

/-- How far the work on a file has come, and what it has at hand. -/
inductive Work where
  | opened
  | resolved (policy : Policy)
  | measured (policy : Policy)
  | read (policy : Policy) (source : String)
  | unserved (policy : Policy) (source : String)
  | loaded (policy : Policy) (source : String)
  | parsing (policy : Policy) (source : String) (loan : Loan)
  | parsed (policy : Policy) (source : String) (loan : Loan) (tree : Except ChunkError Node)
  | returned (policy : Policy) (source : String) (tree : Except ChunkError Node)
  | ended (outcome : Outcome)

namespace Work

def step (p : Processor) (files : FileSystem) (lib : ParserLibrary) (path : OsText) (s : Shared) :
    Work → Shared × Work
  | .opened =>
    match Chunker.resolve ⟨p.chunker.config, s.registry⟩ path with
    | .error e => (s, .ended (.failed none (.chunker e)))
    | .ok policy => (s, .resolved policy)
  | .resolved policy =>
    match files.sizeOf path with
    | .error e => (s, .ended (.failed (some policy.language) (.io e)))
    | .ok size =>
      if p.maxFileBytes < size then
        (s, .ended (.failed (some policy.language)
          (.fileTooLarge path.display size p.maxFileBytes)))
      else (s, .measured policy)
  | .measured policy =>
    match files.readText path with
    | .error e => (s, .ended (.failed (some policy.language) (.io e)))
    | .ok source => (s, .read policy source)
  | .read policy source =>
    match s.registry.pool policy.grammar with
    | parser :: parsers =>
      ({ s with registry := s.registry.setPool policy.grammar parsers },
        .parsing policy source ⟨policy.grammar, parser⟩)
    | [] => (s, .unserved policy source)
  | .unserved policy source =>
    ({ s with registry := (s.registry.load policy.grammar).1 }, .loaded policy source)
  | .loaded policy source =>
    let (registry, parser, _) := s.registry.build lib policy.grammar
    match parser with
    | .error e => ({ s with registry }, .ended (.failed (some policy.language) (.chunker e)))
    | .ok parser => ({ s with registry }, .parsing policy source ⟨policy.grammar, parser⟩)
  | .parsing policy source loan =>
    let tree := lib.tree? loan.parser.grammar (s.memory.past loan.parser) source
    ({ s with memory := (loan.parser, .parsed source) :: s.memory },
      .parsed policy source loan (ParserLibrary.accept policy tree))
  | .parsed policy source loan tree =>
    ({ s with
        registry := s.registry.giveBack loan, memory := (loan.parser, .reset) :: s.memory },
      .returned policy source tree)
  | .returned policy source tree =>
    match tree.map (Chunker.chunksOf p.chunker.config policy path.display source) with
    | .error e => (s, .ended (.failed (some policy.language) (.chunker e)))
    | .ok chunks =>
      (s, .ended
        (.chunked ⟨path.display, some policy.language, chunks⟩ (Text.lineCount source)))
  | .ended outcome => (s, .ended outcome)

def rank : Work → Nat
  | .opened => 9
  | .resolved _ => 8
  | .measured _ => 7
  | .read .. => 6
  | .unserved .. => 5
  | .loaded .. => 4
  | .parsing .. => 3
  | .parsed .. => 2
  | .returned .. => 1
  | .ended _ => 0

theorem rank_le (w : Work) : w.rank ≤ 9 := by
  cases w <;> simp [rank]

end Work

theorem resolve_congr (config : Config) {r r' : Registry} (h : r.overrides = r'.overrides)
    (path : OsText) : Chunker.resolve ⟨config, r⟩ path = Chunker.resolve ⟨config, r'⟩ path := by
  have hext : r.resolveExtension? = r'.resolveExtension? := by
    funext ext
    simp only [Registry.resolveExtension?, Registry.override?, h]
  unfold Chunker.resolve Registry.resolve?
  rw [hext]

theorem Processor.free_of_new {p : Processor} {settings : Settings} {setting : Option String}
    {processors : Nat} (h : Processor.new settings setting processors = .ok p) :
    p.limiter.permits < p.limiter.limit := by
  rw [Processor.eq_of_new h]
  exact Nat.le_max_left 1 _

theorem Processor.filed_of_new {p : Processor} {settings : Settings} {setting : Option String}
    {processors : Nat} (h : Processor.new settings setting processors = .ok p) :
    p.chunker.registry.Filed := by
  rw [Processor.eq_of_new h]
  exact Registry.filed_ofExtensions _

structure Shared.Sound (p : Processor) (s : Shared) : Prop where
  overrides : s.registry.overrides = p.chunker.registry.overrides
  filed : s.registry.Filed

namespace Work

def Faithful (p : Processor) (files : FileSystem) (lib : ParserLibrary) (path : OsText) :
    Work → Prop
  | .opened => True
  | .resolved policy => p.chunker.resolve path = .ok policy
  | .measured policy =>
    p.chunker.resolve path = .ok policy ∧
      p.readSource files path = (files.readText path).mapError BatchError.io
  | .read policy source => p.Reads files path policy source
  | .unserved policy source => p.Reads files path policy source
  | .loaded policy source => p.Reads files path policy source
  | .parsing policy source loan =>
    p.Reads files path policy source ∧ loan.grammar = policy.grammar ∧
      loan.parser.grammar = loan.grammar
  | .parsed policy source loan tree =>
    p.Reads files path policy source ∧ loan.parser.grammar = loan.grammar ∧
      tree = lib.parse policy source
  | .returned policy source tree =>
    p.Reads files path policy source ∧ tree = lib.parse policy source
  | .ended outcome => outcome = p.run files lib path

section Step

variable {p : Processor} {files : FileSystem} {lib : ParserLibrary} {path : OsText} {s : Shared}
  {w : Work}

theorem step_limiter : (w.step p files lib path s).1.limiter = s.limiter := by
  cases w with
  | unserved _ _ | parsing _ _ _ | parsed _ _ _ _ | ended _ => rfl
  | opened | resolved _ | measured _ | read _ _ | loaded _ _ | returned _ _ _ =>
    unfold step
    dsimp only
    repeat' split
    all_goals rfl

theorem step_loaded (hlib : lib.Dependable) (policy : Policy) (source : String) :
    (Work.loaded policy source).step p files lib path s =
      ({ s with
          registry := { (s.registry.load policy.grammar).1 with
            built := ⟨s.registry.built.length, policy.grammar⟩ :: s.registry.built } },
        .parsing policy source ⟨policy.grammar, ⟨s.registry.built.length, policy.grammar⟩⟩) := by
  simp only [step, Registry.build_of_takes (hlib.takes policy.grammar)]

theorem sound_step (hlib : lib.Dependable) (hs : s.Sound p) (h : w.Faithful p files lib path) :
    (w.step p files lib path s).1.Sound p := by
  cases w with
  | parsing policy source loan => exact ⟨hs.overrides, hs.filed⟩
  | ended outcome => exact hs
  | unserved policy source =>
    refine ⟨(Registry.load_overrides ..).trans hs.overrides, ?_⟩
    intro g
    rw [step, Registry.pool_congr (Registry.load_idle ..)]
    exact hs.filed g
  | loaded policy source =>
    rw [step_loaded hlib]
    refine ⟨(Registry.load_overrides ..).trans hs.overrides, ?_⟩
    intro g
    have hpool := Registry.pool_congr (Registry.load_idle s.registry policy.grammar) g
    exact hpool ▸ hs.filed g
  | parsed policy source loan tree =>
    refine ⟨hs.overrides, ?_⟩
    intro g
    rw [step, Registry.pool_giveBack]
    split
    next hg => exact List.forall_mem_cons.2 ⟨h.2.1.trans hg, hs.filed g⟩
    next => exact hs.filed g
  | read policy source =>
    unfold step
    dsimp only
    split
    next parser parsers hpool =>
      refine ⟨hs.overrides, ?_⟩
      intro g
      rw [Registry.pool_setPool]
      split
      next hg =>
        have hfiled := hs.filed g
        rw [← hg, hpool] at hfiled
        exact hg ▸ (List.forall_mem_cons.1 hfiled).2
      next => exact hs.filed g
    next => exact hs
  | opened | resolved _ | measured _ | returned _ _ _ =>
    unfold step
    dsimp only
    repeat' split
    all_goals exact hs

theorem faithful_step (hlib : lib.Dependable) (hs : s.Sound p)
    (h : w.Faithful p files lib path) :
    (w.step p files lib path s).2.Faithful p files lib path := by
  cases w with
  | opened =>
    unfold step
    dsimp only
    rw [resolve_congr p.chunker.config hs.overrides]
    split
    next e he => exact (Processor.run_of_resolve_error he).symm
    next policy hp => exact hp
  | resolved policy =>
    unfold step
    dsimp only
    split
    next e he =>
      exact (Processor.run_of_readSource_error h (Processor.readSource_of_sizeOf_error he)).symm
    next size hs =>
      have hread := Processor.readSource_of_sizeOf (p := p) hs
      split
      next hlarge =>
        rw [if_pos hlarge] at hread
        exact (Processor.run_of_readSource_error h hread).symm
      next hlarge =>
        rw [if_neg hlarge] at hread
        exact ⟨h, hread⟩
  | measured policy =>
    obtain ⟨hp, hread⟩ := h
    unfold step
    dsimp only
    split
    next e he =>
      rw [he] at hread
      exact (Processor.run_of_readSource_error hp hread).symm
    next source hs =>
      rw [hs] at hread
      exact ⟨hp, hread⟩
  | read policy source =>
    unfold step
    dsimp only
    split
    next parser parsers hpool =>
      exact ⟨h, rfl, hs.filed policy.grammar parser (hpool ▸ List.mem_cons_self)⟩
    next => exact h
  | unserved policy source => exact h
  | loaded policy source =>
    rw [step_loaded hlib]
    exact ⟨h, rfl, rfl⟩
  | parsing policy source loan =>
    obtain ⟨hreads, hg, hfiled⟩ := h
    refine ⟨hreads, hfiled, ?_⟩
    rw [hfiled, hg, hlib.forgets, ParserLibrary.parse, hlib.takes]
  | parsed policy source loan tree => exact ⟨h.1, h.2.2⟩
  | returned policy source tree =>
    obtain ⟨hreads, rfl⟩ := h
    unfold step
    dsimp only
    split
    next e he => exact (hreads.run_of_error he).symm
    next chunks hc => exact (hreads.run_of_ok hc).symm
  | ended outcome => exact h

theorem rank_step_lt (h : ∀ outcome, w ≠ .ended outcome) :
    (w.step p files lib path s).2.rank < w.rank := by
  cases w with
  | ended outcome => exact absurd rfl (h outcome)
  | unserved _ _ | parsing _ _ _ | parsed _ _ _ _ => exact Nat.lt_succ_self _
  | opened | resolved _ | measured _ | read _ _ | loaded _ _ | returned _ _ _ =>
    unfold step
    dsimp only
    repeat' split
    all_goals simp [rank]

end Step

def outcome? : Work → Option Outcome
  | .ended outcome => some outcome
  | _ => none

theorem outcome?_eq_some_iff {w : Work} {o : Outcome} : w.outcome? = some o ↔ w = .ended o := by
  cases w <;> simp [outcome?]

theorem outcome?_eq_none_iff {w : Work} : w.outcome? = none ↔ ∀ o, w ≠ .ended o := by
  cases w <;> simp [outcome?]

end Work

/-- A task: where it stands with the limiter, and its work. It is outside before its work begins and
again when it is through. -/
structure Task where
  stage : Limiter.Stage := .outside
  work : Work := .opened

namespace Task

def result? (task : Task) : Option Outcome :=
  if task.stage = .outside then task.work.outcome? else none

def step (p : Processor) (files : FileSystem) (lib : ParserLibrary) (path : OsText) (s : Shared)
    (task : Task) : Option (Shared × Task) :=
  match task.stage, task.work.outcome? with
  | .outside, some _ => none
  | .working, none =>
    let (s, work) := task.work.step p files lib path s
    some (s, { task with work })
  | stage, _ =>
    (s.limiter.step stage).map fun (limiter, stage) => ({ s with limiter }, { task with stage })

def held (task : Task) : Nat := task.stage.held

def rank (task : Task) : Nat :=
  match task.stage, task.work.outcome? with
  | .outside, some _ => 0
  | .outside, none => 14
  | .permitted, _ => 13
  | .counted _, _ => 12
  | .working, _ => task.work.rank + 2
  | .leaving, _ => 1

/-- A task does not leave before its work has ended. -/
structure Faithful (p : Processor) (files : FileSystem) (lib : ParserLibrary) (path : OsText)
    (task : Task) : Prop where
  work : task.work.Faithful p files lib path
  leaving : task.stage = .leaving → task.work.outcome?.isSome

theorem Faithful.eq_run {p : Processor} {files : FileSystem} {lib : ParserLibrary} {path : OsText}
    {task : Task} {o : Outcome} (hf : task.Faithful p files lib path) (h : task.result? = some o) :
    o = p.run files lib path := by
  obtain ⟨_, hwork⟩ := Option.ite_none_right_eq_some.1 h
  have hfaithful := hf.work
  rw [Work.outcome?_eq_some_iff.1 hwork] at hfaithful
  exact hfaithful

section Step

variable {p : Processor} {files : FileSystem} {lib : ParserLibrary} {path : OsText} {s s' : Shared}
  {task task' : Task}

theorem step_cases (h : task.step p files lib path s = some (s', task')) :
    (task.stage = .working ∧ task.work.outcome? = none ∧
      s' = (task.work.step p files lib path s).1 ∧
      task' = { task with work := (task.work.step p files lib path s).2 }) ∨
    ((task.stage = .outside → task.work.outcome? = none) ∧
      (task.stage = .working → task.work.outcome?.isSome) ∧
      ∃ limiter stage, s.limiter.step task.stage = some (limiter, stage) ∧
        s' = { s with limiter } ∧ task' = { task with stage }) := by
  simp only [step] at h
  split at h
  next => cases h
  next hstage hwork =>
    cases h
    exact .inl ⟨hstage, hwork, rfl, rfl⟩
  next hthrough hbusy =>
    obtain ⟨⟨limiter, stage⟩, hl, h⟩ := Option.map_eq_some_iff.1 h
    cases h
    refine .inr ⟨?_, ?_, limiter, stage, hl, rfl, rfl⟩
    · intro hstage
      cases hwork : task.work.outcome? with
      | none => rfl
      | some o => exact (hthrough o hstage hwork).elim
    · intro hstage
      cases hwork : task.work.outcome? with
      | none => exact (hbusy hstage hwork).elim
      | some o => rfl

theorem step_limit (h : task.step p files lib path s = some (s', task')) :
    s'.limiter.limit = s.limiter.limit := by
  obtain ⟨-, -, rfl, -⟩ | ⟨-, -, limiter, stage, hl, rfl, -⟩ := step_cases h
  · rw [Work.step_limiter]
  · exact Limiter.step_limit hl

theorem step_permits (h : task.step p files lib path s = some (s', task'))
    (hheld : task.held ≤ s.limiter.permits) :
    s'.limiter.permits + task.held = s.limiter.permits + task'.held := by
  obtain ⟨-, -, rfl, rfl⟩ | ⟨-, -, limiter, stage, hl, rfl, rfl⟩ := step_cases h
  · rw [Work.step_limiter]
    rfl
  · exact Limiter.step_permits hl hheld

theorem sound_step (hlib : lib.Dependable) (hs : s.Sound p) (hf : task.Faithful p files lib path)
    (h : task.step p files lib path s = some (s', task')) : s'.Sound p := by
  obtain ⟨-, -, rfl, -⟩ | ⟨-, -, limiter, stage, -, rfl, -⟩ := step_cases h
  · exact Work.sound_step hlib hs hf.work
  · exact ⟨hs.overrides, hs.filed⟩

theorem faithful_step (hlib : lib.Dependable) (hs : s.Sound p)
    (hf : task.Faithful p files lib path) (h : task.step p files lib path s = some (s', task')) :
    task'.Faithful p files lib path := by
  obtain ⟨hstage, -, -, rfl⟩ | ⟨-, hworking, limiter, stage, hl, -, rfl⟩ := step_cases h
  · refine ⟨Work.faithful_step hlib hs hf.work, ?_⟩
    intro hleaving
    simp [hstage] at hleaving
  · refine ⟨hf.work, ?_⟩
    rintro rfl
    apply hworking
    cases hstage : task.stage <;> simp_all [Limiter.step]

theorem rank_step_lt (hf : task.Faithful p files lib path)
    (h : task.step p files lib path s = some (s', task')) : task'.rank < task.rank := by
  obtain ⟨hstage, hwork, -, rfl⟩ | ⟨houtside, -, limiter, stage, hl, -, rfl⟩ := step_cases h
  · simp only [rank, hstage]
    exact Nat.add_lt_add_right (Work.rank_step_lt (Work.outcome?_eq_none_iff.1 hwork)) 2
  · obtain ⟨before, work⟩ := task
    cases before with
    | outside =>
      obtain ⟨_, hl⟩ := Option.ite_none_right_eq_some.1 hl
      cases hl
      have hwork : work.outcome? = none := houtside rfl
      simp [rank, hwork]
    | permitted =>
      cases hl
      simp [rank]
    | counted now =>
      cases hl
      exact Nat.add_lt_add_right (Nat.lt_succ_of_le work.rank_le) 2
    | working =>
      cases hl
      simp [rank]
    | leaving =>
      cases hl
      obtain ⟨o, ho⟩ := Option.isSome_iff_exists.1 (hf.leaving rfl)
      have hwork : work.outcome? = some o := ho
      simp [rank, hwork]

theorem through_or_waiting_of_step_eq_none (h : task.step p files lib path s = none) :
    task.stage = .outside ∧ (task.result?.isSome ∨ s.limiter.limit ≤ s.limiter.permits) := by
  simp only [step] at h
  split at h
  next o hstage hwork => exact ⟨hstage, .inl (by simp [result?, hstage, hwork])⟩
  next => cases h
  next =>
    obtain ⟨hstage, hlimit⟩ := Limiter.waiting_of_step_eq_none (Option.map_eq_none_iff.1 h)
    exact ⟨hstage, .inr hlimit⟩

end Step

end Task

end CodeChunks.Batch
