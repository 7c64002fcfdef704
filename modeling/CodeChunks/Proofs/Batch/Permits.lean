import CodeChunks.Batch.Limit
import Mathlib.Algebra.GroupWithZero.Nat

namespace CodeChunks.Batch

theorem sum_map_set {α : Type} {xs : List α} {i : Nat} {x : α} (h : xs[i]? = some x)
    (f : α → Nat) (x' : α) : ((xs.set i x').map f).sum + f x = (xs.map f).sum + f x' := by
  induction xs generalizing i with
  | nil => simp at h
  | cons y xs ih =>
    cases i with
    | zero =>
      obtain rfl : y = x := by simpa using h
      simp only [List.set_cons_zero, List.map_cons, List.sum_cons]
      omega
    | succ i =>
      have hrest := ih (by simpa using h : xs[i]? = some x)
      simp only [List.set_cons_succ, List.map_cons, List.sum_cons]
      omega

namespace Limiter

def Stage.held : Stage → Nat
  | .outside => 0
  | _ => 1

inductive Stepped (l : Limiter) : Stage → Limiter → Stage → Prop
  | permitted (hfree : l.permits < l.limit) :
    Stepped l .outside { l with permits := l.permits + 1 } .permitted
  | counted :
    Stepped l .permitted { l with inFlight := l.inFlight + 1 } (.counted (l.inFlight + 1))
  | weighed (now : Nat) : Stepped l (.counted now) { l with peak := max l.peak now } .working
  | countedOff : Stepped l .working { l with inFlight := l.inFlight - 1 } .leaving
  | handedBack : Stepped l .leaving { l with permits := l.permits - 1 } .outside

variable {l l' : Limiter} {stage stage' : Stage}

theorem stepped_of_step (h : l.step stage = some (l', stage')) : Stepped l stage l' stage' := by
  cases stage with
  | outside =>
    obtain ⟨hfree, h⟩ := Option.ite_none_right_eq_some.1 h
    cases h
    exact .permitted hfree
  | permitted =>
    cases h
    exact .counted
  | counted now =>
    cases h
    exact .weighed now
  | working =>
    cases h
    exact .countedOff
  | leaving =>
    cases h
    exact .handedBack

theorem step_limit (h : l.step stage = some (l', stage')) : l'.limit = l.limit := by
  cases stepped_of_step h <;> rfl

theorem step_permits (h : l.step stage = some (l', stage')) (hheld : stage.held ≤ l.permits) :
    l'.permits + stage.held = l.permits + stage'.held := by
  cases stepped_of_step h with
  | handedBack => exact Nat.sub_add_cancel hheld
  | permitted | counted | weighed | countedOff => rfl

theorem waiting_of_step_eq_none (h : l.step stage = none) :
    stage = .outside ∧ l.limit ≤ l.permits := by
  cases stage with
  | outside => exact ⟨rfl, by simpa [step] using h⟩
  | permitted | counted _ | working | leaving => cases h

end Limiter

end CodeChunks.Batch
