import CodeChunks.Proofs.Batch.Task
import CodeChunks.Proofs.Files.Tree
import CodeChunks.Proofs.Syntax.Layout

/-!
Batches as the tasks of their files carry them out. The tasks share the limiter and the registry and
take their steps in any order; the outcomes are collected in the order of the paths. Main statement:
every order of the steps comes to an end, and to one and the same output, in which each file has the
entry that it has alone.
-/

namespace CodeChunks.Batch

open Files

structure Machine where
  shared : Shared
  tasks : List (OsText × Task)
  output : Output

inductive Move where
  | task (number : Nat)
  | collect
  deriving DecidableEq, Repr

namespace Machine

def start (p : Processor) (memory : Memory) (paths : List OsText) : Machine where
  shared := ⟨p.limiter, p.chunker.registry, memory⟩
  tasks := paths.map fun path => (path, {})
  output := ⟨[], {}⟩

def step (p : Processor) (files : FileSystem) (lib : ParserLibrary) (m : Machine) :
    Move → Option Machine
  | .task number => do
    let (path, task) ← m.tasks[number]?
    let (shared, task) ← task.step p files lib path m.shared
    return { m with shared, tasks := m.tasks.set number (path, task) }
  | .collect => do
    let (path, task) ← m.tasks[m.output.files.length]?
    let o ← task.result?
    return { m with output := ⟨m.output.files ++ [o.entry path], o.addTo path m.output.stats⟩ }

def run (p : Processor) (files : FileSystem) (lib : ParserLibrary) (m : Machine)
    (moves : List Move) : Option Machine :=
  moves.foldlM (step p files lib) m

def Finished (m : Machine) : Prop := m.output.files.length = m.tasks.length
  deriving Decidable

section Step

variable {p : Processor} {files : FileSystem} {lib : ParserLibrary} {m m' : Machine} {move : Move}

theorem step_cases (h : m.step p files lib move = some m') :
    (∃ number path task shared task', m.tasks[number]? = some (path, task) ∧
      task.step p files lib path m.shared = some (shared, task') ∧
      m' = { m with shared, tasks := m.tasks.set number (path, task') }) ∨
    (∃ path task o, m.tasks[m.output.files.length]? = some (path, task) ∧
      task.result? = some o ∧
      m' = { m with
        output := ⟨m.output.files ++ [o.entry path], o.addTo path m.output.stats⟩ }) := by
  cases move with
  | task number =>
    obtain ⟨⟨path, task⟩, htask, h⟩ := Option.bind_eq_some_iff.1 h
    obtain ⟨⟨shared, task'⟩, hstep, h⟩ := Option.bind_eq_some_iff.1 h
    cases h
    exact .inl ⟨number, path, task, shared, task', htask, hstep, rfl⟩
  | collect =>
    obtain ⟨⟨path, task⟩, htask, h⟩ := Option.bind_eq_some_iff.1 h
    obtain ⟨o, hresult, h⟩ := Option.bind_eq_some_iff.1 h
    cases h
    exact .inr ⟨path, task, o, htask, hresult, rfl⟩

end Step

def held (m : Machine) : Nat := (m.tasks.map fun x => x.2.held).sum

def rank (m : Machine) : Nat :=
  (m.tasks.map fun x => x.2.rank).sum + (m.tasks.length - m.output.files.length)

/-- What every order of the moves keeps. -/
structure Faithful (p : Processor) (files : FileSystem) (lib : ParserLibrary) (paths : List OsText)
    (m : Machine) : Prop where
  sound : m.shared.Sound p
  limit : m.shared.limiter.limit = p.limiter.limit
  permits : m.shared.limiter.permits = p.limiter.permits + m.held
  order : m.tasks.map Prod.fst = paths
  tasks : ∀ x ∈ m.tasks, x.2.Faithful p files lib x.1
  output : m.output = p.processBatch files lib (paths.take m.output.files.length)

theorem sum_map_set {tasks : List (OsText × Task)} {number : Nat} {path : OsText} {task : Task}
    (h : tasks[number]? = some (path, task)) (f : Task → Nat) (task' : Task) :
    ((tasks.set number (path, task')).map fun x => f x.2).sum + f task =
      (tasks.map fun x => f x.2).sum + f task' :=
  Batch.sum_map_set h (fun x => f x.2) (path, task')

section Run

variable {p : Processor} {files : FileSystem} {lib : ParserLibrary} {memory : Memory}
  {paths : List OsText} {m m' : Machine} {move : Move} {moves : List Move}

theorem sum_map_start (f : Task → Nat) :
    ((start p memory paths).tasks.map fun x => f x.2).sum = paths.length * f {} := by
  have hconst : ((start p memory paths).tasks.map fun x => f x.2) =
      List.replicate paths.length (f {}) := by
    simp [start, Function.comp_def, List.map_const']
  rw [hconst, List.sum_replicate_nat]

theorem faithful_start (hp : p.chunker.registry.Filed) :
    (start p memory paths).Faithful p files lib paths where
  sound := ⟨rfl, hp⟩
  limit := rfl
  permits := by
    have hheld : (start p memory paths).held = paths.length * 0 := sum_map_start Task.held
    rw [hheld]
    rfl
  order := by simp [start, Function.comp_def]
  tasks := by
    intro x hx
    obtain ⟨path, -, rfl⟩ := List.mem_map.1 hx
    exact ⟨trivial, fun h => by cases h⟩
  output := rfl

theorem held_le {number : Nat} {path : OsText} {task : Task}
    (h : m.tasks[number]? = some (path, task)) : task.held ≤ m.held := by
  have hsum := sum_map_set h Task.held {}
  have hnone : Task.held {} = 0 := rfl
  rw [held]
  omega

theorem Faithful.task {number : Nat} {path : OsText} {task : Task}
    (hm : m.Faithful p files lib paths) (h : m.tasks[number]? = some (path, task)) :
    task.Faithful p files lib path :=
  hm.tasks (path, task) (List.mem_of_getElem? h)

theorem faithful_step (hlib : lib.Dependable) (hm : m.Faithful p files lib paths)
    (h : m.step p files lib move = some m') : m'.Faithful p files lib paths := by
  obtain ⟨number, path, task, shared, task', htask, hstep, rfl⟩ |
    ⟨path, task, o, htask, hresult, rfl⟩ := step_cases h
  · constructor
    case sound => exact Task.sound_step hlib hm.sound (hm.task htask) hstep
    case limit => exact (Task.step_limit hstep).trans hm.limit
    case permits =>
      have hheld := sum_map_set htask Task.held task'
      have hle := held_le htask
      have hpermits := hm.permits
      have hmoved := Task.step_permits hstep (by omega)
      simp only [held] at hpermits hle ⊢
      omega
    case order =>
      obtain ⟨hlt, hpath⟩ : ∃ h : number < (m.tasks.map Prod.fst).length,
          (m.tasks.map Prod.fst)[number] = path :=
        List.getElem?_eq_some_iff.1 (by simp [htask])
      rw [List.map_set, ← hpath, List.set_getElem_self, hm.order]
    case tasks =>
      intro x hx
      rcases List.mem_or_eq_of_mem_set hx with hx | rfl
      · exact hm.tasks x hx
      · exact Task.faithful_step hlib hm.sound (hm.task htask) hstep
    case output => exact hm.output
  · refine ⟨hm.sound, hm.limit, hm.permits, hm.order, hm.tasks, ?_⟩
    have ho : o = p.run files lib path := (hm.task htask).eq_run hresult
    have hpath : paths[m.output.files.length]? = some path := by simp [← hm.order, htask]
    have htake : paths.take (m.output.files.length + 1) =
        paths.take m.output.files.length ++ [path] := by
      rw [List.take_add_one, hpath]
      rfl
    simp only [List.length_append, List.length_singleton]
    rw [htake, Processor.processBatch_concat, ← hm.output, ho]

theorem faithful_run (hlib : lib.Dependable) (hm : m.Faithful p files lib paths)
    (h : m.run p files lib moves = some m') : m'.Faithful p files lib paths := by
  induction moves generalizing m with
  | nil =>
    cases h
    exact hm
  | cons move moves ih =>
    obtain ⟨m₁, hstep, hrun⟩ := Option.bind_eq_some_iff.1 h
    exact ih (faithful_step hlib hm hstep) hrun

theorem rank_step_lt (hm : m.Faithful p files lib paths) (h : m.step p files lib move = some m') :
    m'.rank < m.rank := by
  obtain ⟨number, path, task, shared, task', htask, hstep, rfl⟩ |
    ⟨path, task, o, htask, -, rfl⟩ := step_cases h
  · have hsum := sum_map_set htask Task.rank task'
    have hlt := Task.rank_step_lt (hm.task htask) hstep
    simp only [rank, List.length_set]
    omega
  · obtain ⟨hlt, -⟩ := List.getElem?_eq_some_iff.1 htask
    simp only [rank, List.length_append, List.length_singleton]
    omega

theorem length_add_rank_le (hlib : lib.Dependable) (hm : m.Faithful p files lib paths)
    (h : m.run p files lib moves = some m') : moves.length + m'.rank ≤ m.rank := by
  induction moves generalizing m with
  | nil =>
    cases h
    simp
  | cons move moves ih =>
    obtain ⟨m₁, hstep, hrun⟩ := Option.bind_eq_some_iff.1 h
    have hlt := rank_step_lt hm hstep
    have hle := ih (faithful_step hlib hm hstep) hrun
    simp only [List.length_cons]
    omega

theorem rank_start : (start p memory paths).rank = 15 * paths.length := by
  have hsum : ((start p memory paths).tasks.map fun x => x.2.rank).sum = paths.length * 14 :=
    sum_map_start Task.rank
  rw [rank, hsum]
  simp only [start, List.length_map, List.length_nil]
  omega

theorem Faithful.length_files_le (hm : m.Faithful p files lib paths) :
    m.output.files.length ≤ paths.length := by
  have hlength := congrArg (fun o => o.files.length) hm.output
  simp only [Processor.processBatch_files, List.length_map, List.length_take] at hlength
  omega

theorem step_task_eq_none {number : Nat} {path : OsText} {task : Task}
    (htask : m.tasks[number]? = some (path, task))
    (h : m.step p files lib (.task number) = none) :
    task.step p files lib path m.shared = none := by
  cases hs : task.step p files lib path m.shared with
  | none => rfl
  | some x => simp [step, htask, hs] at h

theorem result?_eq_none {path : OsText} {task : Task}
    (htask : m.tasks[m.output.files.length]? = some (path, task))
    (h : m.step p files lib .collect = none) : task.result? = none := by
  cases hr : task.result? with
  | none => rfl
  | some o => simp [step, htask, hr] at h

theorem held_of_stuck (h : ∀ move, m.step p files lib move = none) : m.held = 0 := by
  rw [held, List.sum_eq_zero_iff_forall_eq_nat]
  intro n hn
  obtain ⟨⟨path, task⟩, hmem, rfl⟩ := List.mem_map.1 hn
  obtain ⟨number, htask⟩ := List.getElem?_of_mem hmem
  have hstage := (Task.through_or_waiting_of_step_eq_none (step_task_eq_none htask (h _))).1
  simp [Task.held, hstage, Limiter.Stage.held]

theorem finished_iff (hm : m.Faithful p files lib paths) :
    m.Finished ↔ m.output.files.length = paths.length := by
  rw [Finished, ← hm.order, List.length_map]

theorem finished_of_stuck (hm : m.Faithful p files lib paths)
    (hfree : p.limiter.permits < p.limiter.limit) (h : ∀ move, m.step p files lib move = none) :
    m.Finished := by
  rw [finished_iff hm]
  rcases Nat.lt_or_ge m.output.files.length m.tasks.length with hlt | hge
  · obtain ⟨⟨path, task⟩, htask⟩ : ∃ x, m.tasks[m.output.files.length]? = some x :=
      ⟨_, List.getElem?_eq_getElem hlt⟩
    -- The task whose turn it is waits for a permit, though none is out.
    have hwaits := (Task.through_or_waiting_of_step_eq_none (step_task_eq_none htask (h _))).2
    rw [result?_eq_none htask (h .collect), hm.permits, held_of_stuck h, hm.limit] at hwaits
    rcases hwaits with hthrough | hfull
    · cases hthrough
    · omega
  · rw [← List.length_map Prod.fst, hm.order] at hge
    exact Nat.le_antisymm hm.length_files_le hge

theorem Faithful.output_of_finished (hm : m.Faithful p files lib paths) (h : m.Finished) :
    m.output = p.processBatch files lib paths := by
  have houtput := hm.output
  rwa [(finished_iff hm).1 h, List.take_length] at houtput

end Run

/-- However the tasks of a batch take turns, the batch comes to an end, and its output is one and
the same: for each path, in their order, the entry that its file has alone. The parsers may have
been used before. -/
theorem output_of_interleaving {p : Processor} (hp : p.chunker.registry.Filed) (files : FileSystem)
    {lib : ParserLibrary} (hlib : lib.Dependable) (memory : Memory) (paths : List OsText)
    {moves : List Move} {m : Machine}
    (hrun : (start p memory paths).run p files lib moves = some m) :
    moves.length ≤ 15 * paths.length ∧
      (p.limiter.permits < p.limiter.limit → ¬ m.Finished →
        ∃ move m', m.step p files lib move = some m') ∧
      (m.Finished → m.output = p.processBatch files lib paths ∧
        m.output.files = paths.map (p.entryOf files lib)) := by
  have hstart : (start p memory paths).Faithful p files lib paths := faithful_start hp
  have hm := faithful_run hlib hstart hrun
  refine ⟨?_, ?_, ?_⟩
  · have hle := length_add_rank_le hlib hstart hrun
    rw [rank_start] at hle
    omega
  · intro hfree hleft
    refine Classical.byContradiction fun hstuck => hleft (finished_of_stuck hm hfree ?_)
    intro move
    exact Option.eq_none_iff_forall_ne_some.2 fun m' h => hstuck ⟨move, m', h⟩
  · intro hfinished
    have houtput := hm.output_of_finished hfinished
    exact ⟨houtput, houtput ▸ Processor.processBatch_files paths⟩

namespace Mixed

def paths : List OsText := ["a.js", "notes", "a.js", "b.js"]

def files : FileSystem := (Tree.ofFiles [("a.js", "let a = 1;".toUTF8)]).system leaveHidden

def root : Syntax.Node :=
  .clean "let a = 1;" true "program" [] 0 10
    [.clean "let a = 1;" true "lexical_declaration" [] 0 10 []]

def parses : ParserLibrary := .ofTable fun _ _ => some root

theorem parses_dependable : parses.Dependable := ParserLibrary.dependable_ofTable _

def processor : Processor := ⟨⟨{}, {}⟩, 64, .new 2⟩

theorem new_eq_processor :
    Processor.new { concurrency := some 2, maxFileBytes := 64 } none 1 = .ok processor := rfl

/-- The first and the third task go side by side; the last waits until others are through. -/
def moves : List Move :=
  (List.replicate 14 [.task 2, .task 0]).flatten ++ List.replicate 6 (.task 1) ++ [.collect] ++
    List.replicate 7 (.task 3) ++ List.replicate 3 .collect

end Mixed

open Mixed

theorem output_of_interleaving_mixed :
    processor.limiter.permits < processor.limiter.limit ∧ ¬ (start processor [] paths).Finished ∧
      (∃ move m, (start processor [] paths).step processor files parses move = some m) ∧
      ∃ m, (start processor [] paths).run processor files parses moves = some m ∧ m.Finished ∧
        m.output = processor.processBatch files parses paths ∧
        m.output.files = paths.map (processor.entryOf files parses) := by
  have hfree := Processor.free_of_new new_eq_processor
  have hfiled := Processor.filed_of_new new_eq_processor
  have hleft : ¬ (start processor [] paths).Finished := by decide
  have hbegin : (start processor [] paths).run processor files parses [] =
      some (start processor [] paths) := rfl
  obtain ⟨-, hmoves, -⟩ :=
    output_of_interleaving hfiled files parses_dependable [] paths hbegin
  have hends : ((start processor [] paths).run processor files parses moves).any
      (fun m => m.Finished) := by decide +kernel
  obtain ⟨m, hrun, hm⟩ := (Option.any_eq_true ..).1 hends
  have hfinished : m.Finished := of_decide_eq_true hm
  obtain ⟨-, -, houtput⟩ :=
    output_of_interleaving hfiled files parses_dependable [] paths hrun
  exact ⟨hfree, hleft, hmoves hfree hleft, m, hrun, hfinished, houtput hfinished⟩

end Machine

end CodeChunks.Batch
