import CodeChunks.Proofs.Batch.Permits
import Mathlib.Algebra.Order.BigOperators.Group.List
import Mathlib.Algebra.Order.Ring.Nat

namespace CodeChunks.Batch

namespace Limiter

def Stage.inFlight : Stage → Nat
  | .counted _ | .working => 1
  | _ => 0

theorem Stage.inFlight_le_held (stage : Stage) : stage.inFlight ≤ stage.held := by
  cases stage <;> simp [inFlight, held]

variable {l l' : Limiter} {stage stage' : Stage}

theorem step_inFlight (h : l.step stage = some (l', stage')) (hin : stage.inFlight ≤ l.inFlight) :
    l'.inFlight + stage.inFlight = l.inFlight + stage'.inFlight := by
  cases stepped_of_step h with
  | countedOff => exact Nat.sub_add_cancel hin
  | permitted | counted | weighed | handedBack => rfl

theorem step_permits_le (h : l.step stage = some (l', stage')) (hle : l.permits ≤ l.limit) :
    l'.permits ≤ l'.limit := by
  cases stepped_of_step h with
  | permitted hfree => exact hfree
  | counted | weighed | countedOff => exact hle
  | handedBack => exact Nat.le_trans (Nat.sub_le _ _) hle

theorem eq_inFlight_of_step_counted {now : Nat} (h : l.step stage = some (l', .counted now)) :
    now = l'.inFlight := by
  cases stepped_of_step h with
  | counted => rfl

theorem step_peak_le (h : l.step stage = some (l', stage')) (hpeak : l.peak ≤ l.limit)
    (hnow : ∀ now, stage = .counted now → now ≤ l.limit) : l'.peak ≤ l'.limit := by
  cases stepped_of_step h with
  | weighed now => exact Nat.max_le.2 ⟨hpeak, hnow now rfl⟩
  | permitted | counted | countedOff | handedBack => exact hpeak

end Limiter

namespace Crew

open Limiter (Stage)

def start (limit tasks : Nat) : Crew := ⟨.new limit, List.replicate tasks .outside⟩

def run (c : Crew) (moves : List Nat) : Option Crew := moves.foldlM step c

def total (stages : List Stage) (weight : Stage → Nat) : Nat := (stages.map weight).sum

theorem le_total_of_mem {stages : List Stage} {stage : Stage} (h : stage ∈ stages)
    (weight : Stage → Nat) : weight stage ≤ total stages weight :=
  List.single_le_sum (by simp) _ (List.mem_map_of_mem h)

theorem total_inFlight_le_held (stages : List Stage) :
    total stages Stage.inFlight ≤ total stages Stage.held :=
  List.sum_le_sum fun stage _ => stage.inFlight_le_held

theorem eq_total_set {stages : List Stage} {task before after : Nat} {stage stage' : Stage}
    {weight : Stage → Nat} (hstage : stages[task]? = some stage)
    (hcount : before = total stages weight)
    (hmoved : weight stage ≤ before → after + weight stage = before + weight stage') :
    after = total (stages.set task stage') weight := by
  have hle := le_total_of_mem (List.mem_of_getElem? hstage) weight
  have hmoved := hmoved (hcount ▸ hle)
  have hsum := sum_map_set hstage weight stage'
  simp only [total] at hcount ⊢
  omega

variable {c c' : Crew} {task : Nat}

theorem step_cases (h : c.step task = some c') :
    ∃ stage limiter stage', c.stages[task]? = some stage ∧
      c.limiter.step stage = some (limiter, stage') ∧
      c' = ⟨limiter, c.stages.set task stage'⟩ := by
  obtain ⟨stage, hstage, h⟩ := Option.bind_eq_some_iff.1 h
  obtain ⟨⟨limiter, stage'⟩, hstep, h⟩ := Option.bind_eq_some_iff.1 h
  cases h
  exact ⟨stage, limiter, stage', hstage, hstep, rfl⟩

structure InStep (c : Crew) : Prop where
  permits : c.limiter.permits = total c.stages Stage.held
  inFlight : c.limiter.inFlight = total c.stages Stage.inFlight
  permits_le : c.limiter.permits ≤ c.limiter.limit
  counted_le : ∀ now, .counted now ∈ c.stages → now ≤ c.limiter.limit
  peak_le : c.limiter.peak ≤ c.limiter.limit

theorem inStep_start (limit tasks : Nat) : (start limit tasks).InStep where
  permits := by simp [start, total, Limiter.new, Stage.held]
  inFlight := by simp [start, total, Limiter.new, Stage.inFlight]
  permits_le := Nat.zero_le _
  counted_le := by simp [start]
  peak_le := Nat.zero_le _

theorem InStep.inFlight_le_permits (hc : c.InStep) : c.limiter.inFlight ≤ c.limiter.permits := by
  rw [hc.inFlight, hc.permits]
  exact total_inFlight_le_held c.stages

theorem InStep.step (hc : c.InStep) (h : c.step task = some c') : c'.InStep := by
  obtain ⟨stage, limiter, stage', hstage, hstep, rfl⟩ := step_cases h
  have hheld : limiter.permits = total (c.stages.set task stage') Stage.held :=
    eq_total_set hstage hc.permits (Limiter.step_permits hstep)
  have hin : limiter.inFlight = total (c.stages.set task stage') Stage.inFlight :=
    eq_total_set hstage hc.inFlight (Limiter.step_inFlight hstep)
  have hpermits : limiter.permits ≤ limiter.limit := Limiter.step_permits_le hstep hc.permits_le
  refine ⟨hheld, hin, hpermits, ?_, ?_⟩
  · intro now hnow
    rcases List.mem_or_eq_of_mem_set hnow with hnow | rfl
    · exact Limiter.step_limit hstep ▸ hc.counted_le now hnow
    -- The task has just been counted, as one of those that have permits.
    · calc
        now = total (c.stages.set task (.counted now)) Stage.inFlight :=
          (Limiter.eq_inFlight_of_step_counted hstep).trans hin
        _ ≤ total (c.stages.set task (.counted now)) Stage.held := total_inFlight_le_held _
        _ ≤ limiter.limit := hheld ▸ hpermits
  · refine Limiter.step_peak_le hstep hc.peak_le ?_
    rintro now rfl
    exact hc.counted_le now (List.mem_of_getElem? hstage)

theorem step_limit (h : c.step task = some c') : c'.limiter.limit = c.limiter.limit := by
  obtain ⟨stage, limiter, stage', -, hstep, rfl⟩ := step_cases h
  exact Limiter.step_limit hstep

theorem inStep_run {moves : List Nat} (hc : c.InStep) (h : c.run moves = some c') :
    c'.InStep ∧ c'.limiter.limit = c.limiter.limit := by
  induction moves generalizing c with
  | nil =>
    cases h
    exact ⟨hc, rfl⟩
  | cons task moves ih =>
    obtain ⟨c₁, hstep, hrun⟩ := Option.bind_eq_some_iff.1 h
    obtain ⟨hc', hlimit⟩ := ih (hc.step hstep) hrun
    exact ⟨hc', hlimit.trans (step_limit hstep)⟩

/-- The counts of a limiter keep to its limit, and none of them is taken down from zero. -/
structure WithinLimit (c : Crew) : Prop where
  one_le_limit : 1 ≤ c.limiter.limit
  limit_le : c.limiter.limit ≤ 32
  permits : c.limiter.permits = c.stages.countP (· ≠ .outside)
  inFlight_le_permits : c.limiter.inFlight ≤ c.limiter.permits
  permits_le_limit : c.limiter.permits ≤ c.limiter.limit
  peak_le_limit : c.limiter.peak ≤ c.limiter.limit
  inFlight_pos : .working ∈ c.stages → 0 < c.limiter.inFlight
  permits_pos : .leaving ∈ c.stages → 0 < c.limiter.permits
  inFlight_eq_zero : (∀ stage ∈ c.stages, stage = .outside ∨ stage = .leaving) →
    c.limiter.inFlight = 0

theorem total_held_eq_countP (stages : List Stage) :
    total stages Stage.held = stages.countP (· ≠ .outside) := by
  induction stages with
  | nil => rfl
  | cons stage stages ih =>
    rw [List.countP_cons, ← ih]
    cases stage <;> simp [total, Stage.held, Nat.add_comm]

theorem InStep.withinLimit {limit : Nat} (hc : c.InStep) (hlimit : c.limiter.limit = clamp limit) :
    c.WithinLimit where
  one_le_limit := hlimit ▸ Nat.le_max_left 1 _
  limit_le := hlimit ▸ Nat.max_le.2 ⟨by decide, Nat.min_le_right limit 32⟩
  permits := hc.permits.trans (total_held_eq_countP c.stages)
  inFlight_le_permits := hc.inFlight_le_permits
  permits_le_limit := hc.permits_le
  peak_le_limit := hc.peak_le
  inFlight_pos := fun h => hc.inFlight ▸ le_total_of_mem h Stage.inFlight
  permits_pos := fun h => hc.permits ▸ le_total_of_mem h Stage.held
  inFlight_eq_zero := by
    intro h
    rw [hc.inFlight, total, List.sum_eq_zero_iff_forall_eq_nat]
    intro n hn
    obtain ⟨stage, hmem, rfl⟩ := List.mem_map.1 hn
    rcases h stage hmem with rfl | rfl <;> rfl

/-- However many tasks share a new limiter, and in whatever order they take and hand back permits,
it keeps to its limit. -/
theorem run_within_limit (limit tasks : Nat) {moves : List Nat} {c : Crew}
    (h : (start limit tasks).run moves = some c) : c.WithinLimit := by
  obtain ⟨hc, hlimit⟩ := inStep_run (inStep_start limit tasks) h
  exact hc.withinLimit hlimit

def handover : Crew := ⟨⟨2, 2, 1, 2⟩, [.outside, .leaving, .working]⟩

theorem run_within_limit_handover :
    (start 2 3).run [0, 1, 1, 0, 0, 1, 0, 0, 2, 1, 2, 2] = some handover ∧
      handover.WithinLimit := by
  have hrun : (start 2 3).run [0, 1, 1, 0, 0, 1, 0, 0, 2, 1, 2, 2] = some handover := rfl
  exact ⟨hrun, run_within_limit 2 3 hrun⟩

end Crew

end CodeChunks.Batch
