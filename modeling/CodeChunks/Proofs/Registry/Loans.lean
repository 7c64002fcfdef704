import CodeChunks.Proofs.Registry.Steps
import Mathlib.Algebra.GroupWithZero.Nat
import Mathlib.Data.List.Count
import Mathlib.Data.List.Nodup
import Mathlib.Data.List.Perm.Basic
import Mathlib.Order.Bounds.Defs

namespace CodeChunks

namespace Registry

def idleParsers (r : Registry) : List Parser := Grammar.all.flatMap r.pool

end Registry

theorem perm_flatMap_filter_grammar {α : Type} [DecidableEq α] (f : α → Grammar) (xs : List α) :
    xs.Perm (Grammar.all.flatMap fun g => xs.filter fun x => f x = g) := by
  rw [List.perm_iff_count]
  intro x
  have hcount (g : Grammar) :
      (xs.filter fun x => f x = g).count x = if f x = g then xs.count x else 0 := by
    split
    next h => exact List.count_filter (by simpa using h)
    next h => exact List.count_eq_zero_of_not_mem (by simp [h])
  simp only [List.count_flatMap, Function.comp_def, hcount]
  cases f x <;> simp [Grammar.all]

namespace Lending

theorem perm_filterMap_set_none {slots : List (Option Loan)} {slot : Nat} {loan : Loan}
    (h : slots[slot]? = some (some loan)) :
    (slots.filterMap id).Perm (loan :: (slots.set slot none).filterMap id) := by
  induction slots generalizing slot with
  | nil => simp at h
  | cons other slots ih =>
    cases slot with
    | zero =>
      obtain rfl : other = some loan := by simpa using h
      simp
    | succ slot =>
      have ih := ih (by simpa using h : slots[slot]? = some (some loan))
      cases other with
      | none => simpa using ih
      | some other => simpa using (ih.cons other).trans (.swap loan other _)

def askedFor (s : Lending) (g : Grammar) : List Parser :=
  (s.onLoan.filter fun loan => loan.grammar = g).map Loan.parser

structure Placed (s : Lending) : Prop where
  perm : ∀ g, (s.registry.builtFor g).Perm (s.registry.pool g ++ s.askedFor g)
  serials : s.registry.built.map Parser.serial = (List.range s.registry.built.length).reverse

variable {s s' : Lending} {x : Step} {lib : ParserLibrary}

theorem Placed.nodup (hs : s.Placed) : s.registry.built.Nodup := by
  apply List.Nodup.of_map Parser.serial
  rw [hs.serials]
  exact List.nodup_reverse.2 List.nodup_range

theorem placed_fresh (extensions : List (String × Policy)) : (fresh extensions).Placed where
  perm := by
    intro g
    rw [fresh, Registry.pool_ofExtensions]
    exact .nil
  serials := rfl

theorem askedFor_lend (hslots : s'.slots = s.slots ++ [some ⟨g', p⟩]) (g : Grammar) :
    s'.askedFor g = s.askedFor g ++ if g' = g then [p] else [] := by
  rw [askedFor, onLoan, hslots, askedFor, onLoan]
  by_cases hg : g' = g <;> simp [hg]

theorem askedFor_congr (hslots : s'.slots = s.slots) (g : Grammar) :
    s'.askedFor g = s.askedFor g := by
  rw [askedFor, onLoan, hslots, askedFor, onLoan]

theorem perm_askedFor_set_none {slot : Nat} {loan : Loan}
    (hloan : s.slots[slot]? = some (some loan)) (hslots : s'.slots = s.slots.set slot none)
    (g : Grammar) :
    (s.askedFor g).Perm
      (if loan.grammar = g then loan.parser :: s'.askedFor g else s'.askedFor g) := by
  have h := ((perm_filterMap_set_none hloan).filter fun loan => loan.grammar = g).map Loan.parser
  rw [← hslots] at h
  by_cases hg : loan.grammar = g
  · rw [if_pos hg]
    rwa [List.filter_cons_of_pos (by simpa using hg)] at h
  · rw [if_neg hg]
    rwa [List.filter_cons_of_neg (by simpa using hg)] at h

theorem Moved.perm (h : Moved s s' x)
    (hs : ∀ g, (s.registry.builtFor g).Perm (s.registry.pool g ++ s.askedFor g)) (g : Grammar) :
    (s'.registry.builtFor g).Perm (s'.registry.pool g ++ s'.askedFor g) := by
  have hs := hs g
  cases h with
  | stayed _ hpool hbuilt hslots =>
    rwa [Registry.builtFor_congr hbuilt, hpool, askedFor_congr hslots]
  | @reused g' p ps hp hpool hbuilt hslots =>
    rw [Registry.builtFor_congr hbuilt, hpool, askedFor_lend hslots]
    by_cases hg : g' = g
    · subst hg
      rw [hp] at hs
      rw [if_pos rfl, if_pos rfl, ← List.append_assoc]
      exact hs.trans (List.perm_append_singleton p _).symm
    · rwa [if_neg hg, if_neg hg, List.append_nil]
  | @built g' _ hpool hbuilt hslots =>
    rw [Registry.builtFor, hbuilt, hpool, askedFor_lend hslots]
    by_cases hg : g' = g
    · rw [List.filter_cons_of_pos (by simpa using hg), if_pos hg, ← List.append_assoc]
      exact (hs.cons _).trans (List.perm_append_singleton _ _).symm
    · rw [List.filter_cons_of_neg (by simpa using hg), if_neg hg, List.append_nil]
      exact hs
  | @returned slot loan hloan hpool hbuilt hslots =>
    have hasked := perm_askedFor_set_none hloan hslots g
    rw [Registry.builtFor_congr hbuilt, hpool]
    by_cases hg : loan.grammar = g
    · rw [if_pos hg] at hasked ⊢
      exact hs.trans ((hasked.append_left _).trans List.perm_middle)
    · rw [if_neg hg] at hasked ⊢
      exact hs.trans (hasked.append_left _)

theorem Moved.serials (h : Moved s s' x)
    (hs : s.registry.built.map Parser.serial = (List.range s.registry.built.length).reverse) :
    s'.registry.built.map Parser.serial = (List.range s'.registry.built.length).reverse := by
  cases h with
  | stayed _ _ hbuilt _ => rwa [hbuilt]
  | reused _ _ hbuilt _ => rwa [hbuilt]
  | built _ _ hbuilt _ => simp [hbuilt, hs, List.range_succ]
  | returned _ _ hbuilt _ => rwa [hbuilt]

theorem Moved.placed (h : Moved s s' x) (hs : s.Placed) : s'.Placed :=
  ⟨h.perm hs.perm, h.serials hs.serials⟩

theorem placed_run (htakes : ∀ g, lib.refusal? g = none) (extensions : List (String × Policy))
    (steps : List Step) : ((fresh extensions).run lib steps).1.Placed :=
  run_induction (P := fun _ s _ => s.Placed) (placed_fresh extensions)
    (fun _ s _ x hs => (moved_step s htakes x).placed hs) steps

def lentFor (s : Lending) (g : Grammar) : List Parser :=
  (s.onLoan.map Loan.parser).filter fun p => p.grammar = g

namespace Placed

theorem filed (hs : s.Placed) : s.registry.Filed := by
  intro g p hp
  have hbuilt := (hs.perm g).mem_iff.2 (List.mem_append_left _ hp)
  simpa using (List.mem_filter.1 hbuilt).2

theorem parser_grammar_eq (hs : s.Placed) {loan : Loan} (hloan : loan ∈ s.onLoan) :
    loan.parser.grammar = loan.grammar := by
  have hasked : loan.parser ∈ s.askedFor loan.grammar :=
    List.mem_map_of_mem (List.mem_filter.2 ⟨hloan, by simp⟩)
  have hbuilt := (hs.perm loan.grammar).mem_iff.2 (List.mem_append_right _ hasked)
  simpa using (List.mem_filter.1 hbuilt).2

theorem lentFor_eq (hs : s.Placed) (g : Grammar) : s.lentFor g = s.askedFor g := by
  rw [lentFor, askedFor, List.filter_map]
  refine congrArg _ (List.filter_congr ?_)
  intro loan hloan
  simp [hs.parser_grammar_eq hloan]

theorem balance (hs : s.Placed) (g : Grammar) :
    (s.registry.builtFor g).length = (s.registry.pool g).length + (s.lentFor g).length := by
  rw [hs.lentFor_eq, ← List.length_append]
  exact (hs.perm g).length_eq

theorem perm_all (hs : s.Placed) :
    s.registry.built.Perm (s.registry.idleParsers ++ s.onLoan.map Loan.parser) := by
  have hlent : (s.onLoan.map Loan.parser).Perm (Grammar.all.flatMap s.askedFor) := by
    have h := (perm_flatMap_filter_grammar Loan.grammar s.onLoan).map Loan.parser
    rwa [List.map_flatMap] at h
  calc
    s.registry.built.Perm (Grammar.all.flatMap s.registry.builtFor) :=
      perm_flatMap_filter_grammar Parser.grammar s.registry.built
    List.Perm _ (Grammar.all.flatMap fun g => s.registry.pool g ++ s.askedFor g) :=
      .flatMap_left _ fun g _ => hs.perm g
    List.Perm _ (s.registry.idleParsers ++ Grammar.all.flatMap s.askedFor) :=
      (Grammar.all.flatMap_append_perm s.registry.pool s.askedFor).symm
    List.Perm _ (s.registry.idleParsers ++ s.onLoan.map Loan.parser) := hlent.symm.append_left _

end Placed

theorem Moved.builtFor (h : Moved s s' x) (g : Grammar) :
    s'.registry.builtFor g = s.registry.builtFor g ∨
      (s'.registry.builtFor g).length = (s.registry.builtFor g).length + 1 ∧
        s'.registry.pool g = [] := by
  cases h with
  | stayed _ _ hbuilt _ => exact .inl (Registry.builtFor_congr hbuilt g)
  | reused _ _ hbuilt _ => exact .inl (Registry.builtFor_congr hbuilt g)
  | @built g' hnone hpool hbuilt _ =>
    by_cases hg : g' = g
    · subst hg
      exact .inr ⟨by simp [Registry.builtFor, hbuilt], by rw [hpool, hnone]⟩
    · exact .inl (by simp [Registry.builtFor, hbuilt, hg])
  | returned _ _ hbuilt _ => exact .inl (Registry.builtFor_congr hbuilt g)

theorem isGreatest_lentFor (htakes : ∀ g, lib.refusal? g = none)
    (extensions : List (String × Policy)) (steps : List Step) (g : Grammar) :
    IsGreatest {n | ∃ before, before <+: steps ∧
        (((fresh extensions).run lib before).1.lentFor g).length = n}
      (((fresh extensions).run lib steps).1.registry.builtFor g).length := by
  -- The last step may build one more parser, and the state after it is one more to compare with.
  induction steps using List.reverseRecOn with
  | nil =>
    refine ⟨⟨[], List.prefix_rfl, rfl⟩, ?_⟩
    rintro n ⟨before, hbefore, rfl⟩
    rw [List.prefix_nil.1 hbefore]
    exact Nat.le_refl _
  | append_singleton steps x ih =>
    have hbalance := (placed_run htakes extensions (steps ++ [x])).balance g
    have hbuilt := (moved_step ((fresh extensions).run lib steps).1 htakes x).builtFor g
    have hrun : ((fresh extensions).run lib (steps ++ [x])).1 =
        (((fresh extensions).run lib steps).1.step lib x).1 := by rw [run_concat]
    rw [← hrun] at hbuilt
    obtain ⟨⟨most, hmost, hlent⟩, hle⟩ := ih
    constructor
    · rcases hbuilt with hbuilt | ⟨-, hpool⟩
      · exact ⟨most, hmost.trans (List.prefix_append _ _), by rw [hlent, hbuilt]⟩
      -- All parsers of the grammar are on loan when one is added.
      · exact ⟨steps ++ [x], List.prefix_rfl, by rw [hbalance, hpool]; simp⟩
    · rintro n ⟨before, hbefore, rfl⟩
      rcases List.prefix_concat_iff.1 hbefore with rfl | hbefore
      · omega
      · have hlent := hle ⟨before, hbefore, rfl⟩
        rcases hbuilt with hbuilt | ⟨hbuilt, -⟩
        · rwa [hbuilt]
        · omega

def requested (steps : List Step) : List Grammar := steps.filterMap Step.requested?

theorem requested_concat_of_none (steps : List Step) (hx : x.requested? = none) :
    requested (steps ++ [x]) = requested steps := by
  simp [requested, hx]

structure Lent (steps : List Step) (s : Lending) : Prop where
  length : s.slots.length = (requested steps).length
  grammar : ∀ (slot : Nat) (loan : Loan), s.slots[slot]? = some (some loan) →
    (requested steps)[slot]? = some loan.grammar
  free : ∀ slot : Nat, s.slots[slot]? = some none → .giveBack slot ∈ steps

theorem Lent.lend {steps : List Step} {loan : Loan} (hs : Lent steps s)
    (hslots : s'.slots = s.slots ++ [some loan]) : Lent (steps ++ [.checkout loan.grammar]) s' := by
  have hrequested : requested (steps ++ [.checkout loan.grammar]) =
      requested steps ++ [loan.grammar] := by simp [requested, Step.requested?]
  -- The slot of the new loan comes behind all others.
  have hcases {slot : Nat} {o : Option Loan} (ho : s'.slots[slot]? = some o) :
      slot < s.slots.length ∧ s.slots[slot]? = some o ∨ slot = s.slots.length ∧ o = some loan := by
    rw [hslots, List.getElem?_append] at ho
    split at ho
    next hlt => exact .inl ⟨hlt, ho⟩
    next hge =>
      rw [List.getElem?_singleton] at ho
      obtain ⟨hat, hloan⟩ := Option.ite_none_right_eq_some.1 ho
      exact .inr ⟨by omega, (Option.some.inj hloan).symm⟩
  refine ⟨by simp [hslots, hrequested, hs.length], ?_, ?_⟩
  · intro slot other hother
    rw [hrequested]
    obtain ⟨hlt, hold⟩ | ⟨rfl, hnew⟩ := hcases hother
    · rw [List.getElem?_append_left (hs.length ▸ hlt)]
      exact hs.grammar slot other hold
    · cases hnew
      simp [hs.length]
  · intro slot hnone
    obtain ⟨-, hold⟩ | ⟨-, hnew⟩ := hcases hnone
    · exact List.mem_append_left _ (hs.free slot hold)
    · cases hnew

theorem Moved.lent {steps : List Step} (h : Moved s s' x) (hs : Lent steps s) :
    Lent (steps ++ [x]) s' := by
  cases h with
  | stayed hx _ _ hslots =>
    have hrequested := requested_concat_of_none steps hx
    refine ⟨?_, ?_, ?_⟩
    · rw [hslots, hrequested, hs.length]
    · rw [hslots, hrequested]
      exact hs.grammar
    · intro slot hnone
      rw [hslots] at hnone
      exact List.mem_append_left _ (hs.free slot hnone)
  | reused _ _ _ hslots => exact hs.lend hslots
  | built _ _ _ hslots => exact hs.lend hslots
  | @returned slot _ _ _ _ hslots =>
    have hrequested := requested_concat_of_none (x := .giveBack slot) steps rfl
    refine ⟨?_, ?_, ?_⟩
    · rw [hslots, hrequested, List.length_set, hs.length]
    · intro slot' loan hloan
      rw [hslots, List.getElem?_set] at hloan
      rw [hrequested]
      -- A slot that holds a loan now is not the one that was freed.
      split at hloan
      · split at hloan <;> simp at hloan
      · exact hs.grammar slot' loan hloan
    · intro slot' hnone
      rw [hslots, List.getElem?_set] at hnone
      split at hnone
      next heq => simp [heq]
      next => exact List.mem_append_left _ (hs.free slot' hnone)

structure Logged (steps : List Step) (r : Registry) (log : List Event) : Prop where
  reported : r.Reported log
  mem_loaded : ∀ g, g ∈ r.loaded ↔ r.builtFor g ≠ [] ∨ .load g ∈ steps

section Log

variable {steps : List Step} {r r' : Registry} {log : List Event}

theorem logged_fresh (extensions : List (String × Policy)) :
    Logged [] (fresh extensions).registry [] :=
  ⟨⟨rfl, .nil⟩, by simp [fresh, Registry.ofExtensions, Registry.builtFor]⟩

theorem Logged.stay (h : Logged steps r log) (hloaded : r'.loaded = r.loaded)
    (hbuilt : r'.built = r.built) (hx : ∀ g, x ≠ .load g) :
    Logged (steps ++ [x]) r' (log ++ []) where
  reported := ⟨by rw [hloaded, List.append_nil, h.reported.log], hloaded ▸ h.reported.nodup⟩
  mem_loaded := by
    intro g
    have hstep : .load g ∈ steps ++ [x] ↔ .load g ∈ steps := by simp [Ne.symm (hx g)]
    rw [hstep, hloaded, h.mem_loaded, Registry.builtFor_congr hbuilt]

theorem Logged.load (h : Logged steps r log) (g : Grammar) :
    Logged (steps ++ [.load g]) (r.load g).1 (log ++ (r.load g).2) where
  reported := h.reported.load g
  mem_loaded := by
    intro g'
    rw [Registry.mem_loaded_load, h.mem_loaded, Registry.builtFor_congr (Registry.load_built r g)]
    simp only [List.mem_append, List.mem_singleton, Step.load.injEq]
    tauto

theorem Logged.build (h : Logged steps r log) {g : Grammar} (p : Parser) (hp : p.grammar = g)
    (hr' : r' = { (r.load g).1 with built := p :: r.built }) :
    Logged (steps ++ [.checkout g]) r' (log ++ (r.load g).2) where
  reported := by
    rw [hr']
    exact ⟨(h.reported.load g).log, (h.reported.load g).nodup⟩
  mem_loaded := by
    intro g'
    have hbuilt : r'.builtFor g' ≠ [] ↔ g' = g ∨ r.builtFor g' ≠ [] := by
      by_cases hg : g = g' <;> simp [Registry.builtFor, hr', hp, hg, Ne.symm]
    have hloaded : g' ∈ r'.loaded ↔ g' ∈ (r.load g).1.loaded := by rw [hr']
    rw [hloaded, hbuilt, Registry.mem_loaded_load, h.mem_loaded]
    simp [or_assoc]

theorem Logged.step (h : Logged steps s.registry log) (htakes : ∀ g, lib.refusal? g = none)
    (x : Step) :
    Logged (steps ++ [x]) (s.step lib x).1.registry (log ++ (s.step lib x).2.2) := by
  cases x with
  | resolve path => exact h.stay rfl rfl (by simp)
  | resolveExtension ext => exact h.stay rfl rfl (by simp)
  | load g => exact h.load g
  | checkout g =>
    cases hp : s.registry.pool g with
    | cons p ps =>
      simp only [Lending.step, Registry.checkout_of_pool hp]
      exact h.stay rfl rfl (by simp)
    | nil =>
      simp only [Lending.step, Registry.checkout_of_pool_nil hp (htakes g)]
      exact h.build _ rfl rfl
  | giveBack slot =>
    simp only [Lending.step]
    cases s.slots[slot]?.join with
    | some loan => exact h.stay rfl rfl (by simp)
    | none => exact h.stay rfl rfl (by simp)

theorem logged_run (htakes : ∀ g, lib.refusal? g = none) (extensions : List (String × Policy))
    (steps : List Step) :
    Logged steps ((fresh extensions).run lib steps).1.registry
      ((fresh extensions).run lib steps).2 :=
  run_induction (P := fun steps s log => Logged steps s.registry log) (logged_fresh extensions)
    (fun _ _ _ x h => h.step htakes x) steps

theorem loading_message_injective :
    Function.Injective fun g => (Event.loading g).message := by
  intro g g'
  cases g <;> cases g' <;> decide

theorem Logged.count_message (h : Logged steps r log) (g : Grammar) :
    (log.map Event.message).count ("Loading " ++ g.name ++ " grammar") =
      if r.builtFor g ≠ [] ∨ .load g ∈ steps then 1 else 0 := by
  have hcount := List.count_map_of_injective r.loaded.reverse _ loading_message_injective g
  rw [h.reported.log, List.map_map]
  refine hcount.trans ?_
  rw [List.count_reverse, h.reported.nodup.count]
  simp only [h.mem_loaded]

end Log

theorem lent_run (htakes : ∀ g, lib.refusal? g = none) (extensions : List (String × Policy))
    (steps : List Step) : Lent steps ((fresh extensions).run lib steps).1 :=
  run_induction (P := fun steps s _ => Lent steps s) ⟨rfl, by simp [fresh], by simp [fresh]⟩
    (fun _ s _ x h => (moved_step s htakes x).lent h) steps

theorem length_built_eq_sum (r : Registry) :
    r.built.length = (Grammar.all.map fun g => (r.builtFor g).length).sum := by
  have h := (perm_flatMap_filter_grammar Parser.grammar r.built).length_eq
  rwa [List.length_flatMap] at h

theorem mem_onLoan {slot : Nat} {loan : Loan} (h : s.slots[slot]? = some (some loan)) :
    loan ∈ s.onLoan :=
  List.mem_filterMap.2 ⟨_, List.mem_of_getElem? h, rfl⟩

/-- The books of a registry after the steps of a run: where the parsers are, how many there are and
what has been reported. -/
structure Balanced (start : Lending) (lib : ParserLibrary) (steps : List Step) (s : Lending)
    (log : List Event) : Prop where
  balance : ∀ g, (s.registry.builtFor g).length =
    (s.registry.pool g).length + (s.lentFor g).length
  placed : s.registry.built.Perm (s.registry.idleParsers ++ s.onLoan.map Loan.parser)
  distinct : s.registry.built.Nodup
  filed : s.registry.Filed
  opened : s.slots.length = (requested steps).length
  /-- A slot holds a parser until that is given back. -/
  free : ∀ slot : Nat, s.slots[slot]? = some none → .giveBack slot ∈ steps
  lent : ∀ (slot : Nat) (loan : Loan), s.slots[slot]? = some (some loan) →
    (requested steps)[slot]? = some loan.parser.grammar
  /-- A parser goes back to the pool of its grammar and to no other. -/
  returned : ∀ (slot : Nat) (loan : Loan), s.slots[slot]? = some (some loan) → ∀ g,
    (s.step lib (.giveBack slot)).1.registry.pool g =
      if loan.parser.grammar = g then loan.parser :: s.registry.pool g else s.registry.pool g
  /-- There are as many parsers of a grammar as were ever on loan at once. -/
  peak : ∀ g, IsGreatest
    {n | ∃ before, before <+: steps ∧ ((start.run lib before).1.lentFor g).length = n}
    (s.registry.builtFor g).length
  total : s.registry.built.length =
    (Grammar.all.map fun g => (s.registry.builtFor g).length).sum
  loading : ∀ g, (log.map Event.message).count ("Loading " ++ g.name ++ " grammar") =
    if s.registry.builtFor g ≠ [] ∨ .load g ∈ steps then 1 else 0

/-- The books of a new registry balance after every run, so long as parsers take their grammars. -/
theorem run_balanced (htakes : ∀ g, lib.refusal? g = none) (extensions : List (String × Policy))
    (steps : List Step) :
    Balanced (fresh extensions) lib steps ((fresh extensions).run lib steps).1
      ((fresh extensions).run lib steps).2 where
  balance := (placed_run htakes extensions steps).balance
  placed := (placed_run htakes extensions steps).perm_all
  distinct := (placed_run htakes extensions steps).nodup
  filed := (placed_run htakes extensions steps).filed
  opened := (lent_run htakes extensions steps).length
  free := (lent_run htakes extensions steps).free
  lent := by
    intro slot loan hloan
    rw [(placed_run htakes extensions steps).parser_grammar_eq (mem_onLoan hloan)]
    exact (lent_run htakes extensions steps).grammar slot loan hloan
  returned := by
    intro slot loan hloan g
    rw [step_giveBack hloan,
      (placed_run htakes extensions steps).parser_grammar_eq (mem_onLoan hloan)]
    exact Registry.pool_giveBack _ loan g
  peak := isGreatest_lentFor htakes extensions steps
  total := length_built_eq_sum _
  loading := (logged_run htakes extensions steps).count_message

def handover : List Step :=
  [.checkout .python, .giveBack 0, .checkout .python, .load .java, .checkout .python,
    .checkout .tsx]

theorem run_balanced_handover :
    let lib := ParserLibrary.ofTable fun _ _ => none
    let s := ((fresh []).run lib handover).1
    let log := ((fresh []).run lib handover).2
    (∀ g, lib.refusal? g = none) ∧
      s.registry.built = [⟨2, .tsx⟩, ⟨1, .python⟩, ⟨0, .python⟩] ∧
      s.registry.built.Perm (s.registry.idleParsers ++ s.onLoan.map Loan.parser) ∧
      s.slots.length = 4 ∧
      IsGreatest {n | ∃ before, before <+: handover ∧
        (((fresh []).run lib before).1.lentFor .python).length = n} 2 ∧
      (log.map Event.message).count ("Loading " ++ Grammar.java.name ++ " grammar") = 1 ∧
      (log.map Event.message).count ("Loading " ++ Grammar.typescript.name ++ " grammar") = 0 := by
  intro lib s log
  have htakes : ∀ g, lib.refusal? g = none := fun _ => rfl
  have hbalanced : Balanced (fresh []) lib handover s log := run_balanced htakes [] handover
  have hbuilt : s.registry.built = [⟨2, .tsx⟩, ⟨1, .python⟩, ⟨0, .python⟩] := by decide +kernel
  have hpython : (s.registry.builtFor .python).length = 2 := by
    rw [Registry.builtFor, hbuilt]
    rfl
  have htypescript : ¬(s.registry.builtFor .typescript ≠ [] ∨ .load .typescript ∈ handover) := by
    rw [Registry.builtFor, hbuilt]
    decide
  have hpeak := hbalanced.peak .python
  rw [hpython] at hpeak
  exact ⟨htakes, hbuilt, hbalanced.placed, hbalanced.opened, hpeak,
    (hbalanced.loading .java).trans (if_pos (.inr (by decide))),
    (hbalanced.loading .typescript).trans (if_neg htypescript)⟩

end Lending

end CodeChunks
