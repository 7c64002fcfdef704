import CodeChunks.Registry
import Mathlib.Data.List.Induction

namespace CodeChunks

namespace Registry

variable {r : Registry} {g : Grammar}

def builtFor (r : Registry) (g : Grammar) : List Parser := r.built.filter fun p => p.grammar = g

theorem builtFor_congr {r' : Registry} (h : r'.built = r.built) (g : Grammar) :
    r'.builtFor g = r.builtFor g := by
  rw [builtFor, h, builtFor]

/-- Each pool holds parsers of its grammar only. -/
def Filed (r : Registry) : Prop := ∀ g, ∀ p ∈ r.pool g, p.grammar = g

theorem pool_congr {r' : Registry} (h : r'.idle = r.idle) (g : Grammar) :
    r'.pool g = r.pool g := by
  rw [pool, h, pool]

theorem pool_setPool (r : Registry) (g : Grammar) (ps : List Parser) (g' : Grammar) :
    (r.setPool g ps).pool g' = if g = g' then ps else r.pool g' := by
  have hplace : (g.index : Nat) = g'.index ↔ g = g' := by
    rw [← Fin.ext_iff, Grammar.index_inj]
  simp only [pool, setPool, Fin.getElem_fin, Vector.getElem_set, hplace]

theorem pool_giveBack (r : Registry) (loan : Loan) (g : Grammar) :
    (r.giveBack loan).pool g =
      if loan.grammar = g then loan.parser :: r.pool g else r.pool g := by
  rw [giveBack, pool_setPool]
  by_cases hg : loan.grammar = g
  · rw [if_pos hg, if_pos hg, hg]
  · rw [if_neg hg, if_neg hg]

theorem pool_ofExtensions (extensions : List (String × Policy)) (g : Grammar) :
    (ofExtensions extensions).pool g = [] := by
  cases g <;> rfl

theorem filed_ofExtensions (extensions : List (String × Policy)) :
    (ofExtensions extensions).Filed := by
  intro g p hp
  rw [pool_ofExtensions] at hp
  cases hp

@[simp] theorem load_overrides (r : Registry) (g : Grammar) :
    (r.load g).1.overrides = r.overrides := by
  rw [load]
  split <;> rfl

@[simp] theorem load_idle (r : Registry) (g : Grammar) : (r.load g).1.idle = r.idle := by
  rw [load]
  split <;> rfl

@[simp] theorem load_built (r : Registry) (g : Grammar) : (r.load g).1.built = r.built := by
  rw [load]
  split <;> rfl

variable {lib : ParserLibrary}

theorem build_of_takes (h : lib.refusal? g = none) (r : Registry) :
    r.build lib g =
      ({ (r.load g).1 with built := ⟨r.built.length, g⟩ :: r.built },
        .ok ⟨r.built.length, g⟩, (r.load g).2) := by
  simp only [build, h, load_built]

theorem checkout_of_pool {p : Parser} {ps : List Parser} (h : r.pool g = p :: ps)
    (lib : ParserLibrary) : r.checkout lib g = (r.setPool g ps, .ok ⟨g, p⟩, []) := by
  rw [checkout, h]

theorem checkout_of_pool_nil (h : r.pool g = []) (htakes : lib.refusal? g = none) :
    r.checkout lib g =
      ({ (r.load g).1 with built := ⟨r.built.length, g⟩ :: r.built },
        .ok ⟨g, ⟨r.built.length, g⟩⟩, (r.load g).2) := by
  rw [checkout, h, build_of_takes htakes]
  rfl

theorem parse_of_checkout {policy : Policy} {r' : Registry} {loan : Loan} {events : List Event}
    (h : r.checkout lib policy.grammar = (r', .ok loan, events)) (m : Memory) (source : String) :
    r.parse lib m policy source =
      (r'.giveBack loan, (loan.parser, .reset) :: (loan.parser, .parsed source) :: m,
        ParserLibrary.accept policy
          (lib.tree? loan.parser.grammar (m.past loan.parser) source), events) := by
  simp only [parse, h]

theorem grammar_of_checkout (hr : r.Filed) {r' : Registry} {loan : Loan} {events : List Event}
    (h : r.checkout lib g = (r', .ok loan, events)) : loan.parser.grammar = g := by
  cases hp : r.pool g with
  | cons p ps =>
    rw [checkout_of_pool hp] at h
    cases h
    exact hr g p (by simp [hp])
  | nil =>
    rw [checkout, hp] at h
    cases hrefusal : lib.refusal? g with
    | none =>
      rw [build_of_takes hrefusal] at h
      cases h
      rfl
    | some reason =>
      simp only [build, hrefusal] at h
      cases h

theorem exists_checkout (htakes : lib.refusal? g = none) (r : Registry) :
    ∃ r' loan events, r.checkout lib g = (r', .ok loan, events) := by
  cases hp : r.pool g with
  | cons p ps => exact ⟨_, _, _, checkout_of_pool hp lib⟩
  | nil => exact ⟨_, _, _, checkout_of_pool_nil hp htakes⟩

theorem parse_answer (hr : r.Filed) (hlib : lib.Dependable) (m : Memory) (policy : Policy)
    (source : String) : (r.parse lib m policy source).2.2.1 = lib.parse policy source := by
  have htakes := hlib.takes policy.grammar
  obtain ⟨r', loan, events, hcheckout⟩ := exists_checkout htakes r
  rw [parse_of_checkout hcheckout, grammar_of_checkout hr hcheckout, hlib.forgets,
    ParserLibrary.parse, htakes]

structure Reported (r : Registry) (log : List Event) : Prop where
  log : log = r.loaded.reverse.map Event.loading
  nodup : r.loaded.Nodup

theorem Reported.load {log : List Event} (h : r.Reported log) (g : Grammar) :
    (r.load g).1.Reported (log ++ (r.load g).2) := by
  by_cases hg : g ∈ r.loaded
  · simpa [Registry.load, hg] using h
  · refine ⟨?_, ?_⟩
    · simp [Registry.load, hg, h.log]
    · simp [Registry.load, hg, h.nodup]

theorem mem_loaded_load {g' : Grammar} :
    g' ∈ (r.load g).1.loaded ↔ g' = g ∨ g' ∈ r.loaded := by
  by_cases hg : g ∈ r.loaded
  · simp only [load, hg, if_true]
    constructor
    · exact .inr
    · rintro (rfl | h)
      · exact hg
      · exact h
  · simp [load, hg]

end Registry

namespace Lending

def fresh (extensions : List (String × Policy)) : Lending :=
  { registry := .ofExtensions extensions }

def run (s : Lending) (lib : ParserLibrary) (steps : List Step) : Lending × List Event :=
  steps.foldl (fun (s, log) x => ((s.step lib x).1, log ++ (s.step lib x).2.2)) (s, [])

variable {lib : ParserLibrary}

theorem run_concat (s : Lending) (lib : ParserLibrary) (steps : List Step) (x : Step) :
    s.run lib (steps ++ [x]) =
      (((s.run lib steps).1.step lib x).1,
        (s.run lib steps).2 ++ ((s.run lib steps).1.step lib x).2.2) := by
  simp [run]

theorem run_induction {s : Lending} {P : List Step → Lending → List Event → Prop}
    (start : P [] s [])
    (step : ∀ steps s log x, P steps s log →
      P (steps ++ [x]) (s.step lib x).1 (log ++ (s.step lib x).2.2))
    (steps : List Step) : P steps (s.run lib steps).1 (s.run lib steps).2 := by
  induction steps using List.reverseRecOn with
  | nil => exact start
  | append_singleton steps x ih =>
    rw [run_concat]
    exact step steps _ _ x ih

def Step.requested? : Step → Option Grammar
  | .checkout g => some g
  | _ => none

inductive Moved (s s' : Lending) : Step → Prop
  | stayed {x : Step} (hx : x.requested? = none)
      (hpool : ∀ g, s'.registry.pool g = s.registry.pool g)
      (hbuilt : s'.registry.built = s.registry.built) (hslots : s'.slots = s.slots) : Moved s s' x
  | reused {g : Grammar} {p : Parser} {ps : List Parser} (hp : s.registry.pool g = p :: ps)
      (hpool : ∀ g', s'.registry.pool g' = if g = g' then ps else s.registry.pool g')
      (hbuilt : s'.registry.built = s.registry.built)
      (hslots : s'.slots = s.slots ++ [some ⟨g, p⟩]) : Moved s s' (.checkout g)
  | built {g : Grammar} (hnone : s.registry.pool g = [])
      (hpool : ∀ g', s'.registry.pool g' = s.registry.pool g')
      (hbuilt : s'.registry.built = ⟨s.registry.built.length, g⟩ :: s.registry.built)
      (hslots : s'.slots = s.slots ++ [some ⟨g, ⟨s.registry.built.length, g⟩⟩]) :
      Moved s s' (.checkout g)
  | returned {slot : Nat} {loan : Loan} (hloan : s.slots[slot]? = some (some loan))
      (hpool : ∀ g, s'.registry.pool g =
        if loan.grammar = g then loan.parser :: s.registry.pool g else s.registry.pool g)
      (hbuilt : s'.registry.built = s.registry.built) (hslots : s'.slots = s.slots.set slot none) :
      Moved s s' (.giveBack slot)

theorem step_giveBack {s : Lending} {slot : Nat} {loan : Loan}
    (h : s.slots[slot]? = some (some loan)) (lib : ParserLibrary) :
    s.step lib (.giveBack slot) =
      (⟨s.registry.giveBack loan, s.slots.set slot none⟩, .returned true, []) := by
  simp [step, h]

theorem moved_step (s : Lending) (htakes : ∀ g, lib.refusal? g = none) (x : Step) :
    Moved s (s.step lib x).1 x := by
  cases x with
  | resolve path => exact .stayed rfl (fun _ => rfl) rfl rfl
  | resolveExtension ext => exact .stayed rfl (fun _ => rfl) rfl rfl
  | load g =>
    have hpool := Registry.pool_congr (Registry.load_idle s.registry g)
    exact .stayed rfl hpool (Registry.load_built _ g) rfl
  | checkout g =>
    cases hp : s.registry.pool g with
    | cons p ps =>
      have hstep : s.step lib (.checkout g) =
          (⟨s.registry.setPool g ps, s.slots ++ [some ⟨g, p⟩]⟩, .slot s.slots.length, []) := by
        simp only [step, Registry.checkout_of_pool hp]
      rw [hstep]
      exact .reused hp (Registry.pool_setPool s.registry g ps) rfl rfl
    | nil =>
      simp only [step, Registry.checkout_of_pool_nil hp (htakes g)]
      have hpool := Registry.pool_congr (Registry.load_idle s.registry g)
      exact .built hp hpool rfl rfl
  | giveBack slot =>
    cases hloan : s.slots[slot]?.join with
    | some loan =>
      have hloan := Option.join_eq_some_iff.1 hloan
      rw [step_giveBack hloan]
      exact .returned hloan (s.registry.pool_giveBack loan) rfl rfl
    | none =>
      simp only [step, hloan]
      exact .stayed rfl (fun _ => rfl) rfl rfl

end Lending

end CodeChunks
