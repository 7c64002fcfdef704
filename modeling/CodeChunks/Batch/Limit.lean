import CodeChunks.Text.Blank
import CodeChunks.Text.Decimal

namespace CodeChunks.Batch

def maxConcurrency : Nat := 32

def clamp (n : Nat) : Nat := max 1 (min n maxConcurrency)

def concurrency (configured : Option Nat) (setting : Option String) (processors : Nat) : Nat :=
  match configured with
  | some n => clamp n
  | none => clamp ((setting.bind fun s => Text.readCount? (Text.trim s)).getD (clamp processors))

structure Limiter where
  limit : Nat
  permits : Nat := 0
  inFlight : Nat := 0
  peak : Nat := 0
  deriving DecidableEq, Repr

namespace Limiter

def new (limit : Nat) : Limiter := { limit := clamp limit }

/-- How far a task has come: a permit is taken, then counted, then weighed against the peak; on the
way out it is counted off before it is handed back. -/
inductive Stage where
  | outside
  | permitted
  | counted (now : Nat)
  | working
  | leaving
  deriving DecidableEq, Repr

def step (l : Limiter) : Stage → Option (Limiter × Stage)
  | .outside =>
    if l.permits < l.limit then some ({ l with permits := l.permits + 1 }, .permitted) else none
  | .permitted => some ({ l with inFlight := l.inFlight + 1 }, .counted (l.inFlight + 1))
  | .counted now => some ({ l with peak := max l.peak now }, .working)
  | .working => some ({ l with inFlight := l.inFlight - 1 }, .leaving)
  | .leaving => some ({ l with permits := l.permits - 1 }, .outside)

end Limiter

structure Crew where
  limiter : Limiter
  stages : List Limiter.Stage

def Crew.step (c : Crew) (task : Nat) : Option Crew := do
  let stage ← c.stages[task]?
  let (limiter, stage) ← c.limiter.step stage
  return ⟨limiter, c.stages.set task stage⟩

end CodeChunks.Batch
