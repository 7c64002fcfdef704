import CodeChunks.Extraction.PythonDetails
import CodeChunks.Proofs.Syntax.Layout
import CodeChunks.Proofs.Syntax.Position
import Mathlib.Logic.Relation

namespace CodeChunks.Extraction.Python

open Syntax

/-- The nodes on the way from `body` to the position belong to the scope of the body, and those
below the body are named. -/
structure InScope (body : Node) (p : Position) : Prop where
  unscoped : ∀ q m, q <+: p → body.at? q = some m →
    m.kind ∉ ["function_definition", "class_definition", "lambda"]
  named : ∀ q m, q <+: p → q ≠ [] → body.at? q = some m → m.isNamed

variable {n c m : Node} {i : Nat} {p : Position}

theorem opensScope_eq_false_iff {kind : String} :
    opensScope kind = false ↔ kind ∉ ["function_definition", "class_definition", "lambda"] := by
  simp [opensScope]

theorem inScope_nil : InScope n [] ↔ opensScope n.kind = false := by
  rw [opensScope_eq_false_iff]
  constructor
  · intro h
    exact h.unscoped [] n List.prefix_rfl rfl
  · intro h
    constructor
    · intro q m hq hm
      obtain rfl := List.prefix_nil.1 hq
      cases hm
      exact h
    · intro q m hq hne
      exact absurd (List.prefix_nil.1 hq) hne

theorem inScope_cons (hc : n.children[i]? = some c) :
    InScope n (i :: p) ↔ opensScope n.kind = false ∧ c.isNamed ∧ InScope c p := by
  have hat (q : Position) : n.at? (i :: q) = c.at? q := by simp [hc]
  rw [opensScope_eq_false_iff]
  constructor
  · intro h
    have hbelow {q : Position} (hq : q <+: p) : i :: q <+: i :: p :=
      List.cons_prefix_cons.2 ⟨rfl, hq⟩
    refine ⟨h.unscoped [] n List.nil_prefix rfl, ?_, ?_, ?_⟩
    · exact h.named [i] c (hbelow List.nil_prefix) (by simp) (hat [])
    · intro q m hq hm
      exact h.unscoped (i :: q) m (hbelow hq) ((hat q).trans hm)
    · intro q m hq _ hm
      exact h.named (i :: q) m (hbelow hq) (by simp) ((hat q).trans hm)
  · rintro ⟨hn, hnamed, h⟩
    constructor
    · intro q m hq hm
      rcases List.prefix_cons_iff.1 hq with rfl | ⟨r, rfl, hr⟩
      · cases hm
        exact hn
      · exact h.unscoped r m hr ((hat r).symm.trans hm)
    · intro q m hq hne hm
      rcases List.prefix_cons_iff.1 hq with rfl | ⟨r, rfl, hr⟩
      · exact absurd rfl hne
      · rw [hat] at hm
        cases r with
        | nil =>
          cases hm
          exact hnamed
        | cons j r => exact h.named (j :: r) m hr (by simp) hm

theorem yieldsBelow_eq_any (cs : List Node) :
    yieldsBelow cs = cs.any fun c => c.isNamed && yieldsAt c := by
  induction cs with
  | nil => simp [yieldsBelow]
  | cons c cs ih => simp [yieldsBelow, ih]

theorem yieldsAt_eq (n : Node) :
    yieldsAt n = (n.kind == "yield" ||
      (!opensScope n.kind && n.children.any fun c => c.isNamed && yieldsAt c)) := by
  cases n
  rw [yieldsAt, yieldsBelow_eq_any]
  rfl

theorem not_opensScope_yield : opensScope "yield" = false := by decide

theorem yieldsAt_iff (n : Node) :
    yieldsAt n ↔ ∃ p m, n.at? p = some m ∧ m.kind = "yield" ∧ InScope n p := by
  -- The induction is on the node; the first step of a way goes to a child.
  induction n using Node.induction with
  | mk l cs ih =>
    rw [yieldsAt_eq, Bool.or_eq_true, Bool.and_eq_true, Bool.not_eq_true', beq_iff_eq,
      List.any_eq_true]
    constructor
    · rintro (hkind | ⟨hscope, c, hc, hyields⟩)
      · exact ⟨[], .mk l cs, rfl, hkind, inScope_nil.2 (hkind ▸ not_opensScope_yield)⟩
      · rw [Bool.and_eq_true] at hyields
        obtain ⟨p, m, hm, hkind, hway⟩ := (ih c hc).1 hyields.2
        obtain ⟨i, hi⟩ := List.mem_iff_getElem?.1 hc
        refine ⟨i :: p, m, ?_, hkind, (inScope_cons hi).2 ⟨hscope, hyields.1, hway⟩⟩
        rw [Node.at?_cons, hi]
        exact hm
    · rintro ⟨p, m, hm, hkind, hway⟩
      cases p with
      | nil =>
        cases hm
        exact .inl hkind
      | cons i p =>
        obtain ⟨c, hi, hm⟩ := Option.bind_eq_some_iff.1 hm
        obtain ⟨hscope, hnamed, hway⟩ := (inScope_cons hi).1 hway
        have hc := List.mem_of_getElem? hi
        refine .inr ⟨hscope, c, hc, ?_⟩
        rw [hnamed, Bool.true_and]
        exact (ih c hc).2 ⟨p, m, hm, hkind, hway⟩

def scopeChildren (n : Node) : List Node := if opensScope n.kind then [] else n.namedChildren

inductive SearchStep (waiting next : List Node) : Prop
  | take {n : Node} {rest : List Node} (taken : waiting.Perm (n :: rest))
      (kind_ne : n.kind ≠ "yield") (left : next.Perm (scopeChildren n ++ rest))

inductive Stops : List Node → Bool → Prop
  | found {waiting : List Node} {n : Node} (mem : n ∈ waiting) (kind : n.kind = "yield") :
      Stops waiting true
  | empty : Stops [] false

/-- Whatever is taken when, a search from here ends, and gives this answer. -/
structure Settles (waiting : List Node) (answer : Bool) : Prop where
  ends : Acc (fun next waiting => SearchStep waiting next) waiting
  goesOn : ∀ later, Relation.ReflTransGen SearchStep waiting later →
    (∃ a, Stops later a) ∨ ∃ next, SearchStep later next
  agrees : ∀ later, Relation.ReflTransGen SearchStep waiting later →
    ∀ a, Stops later a → a = answer

theorem yieldsAt_eq_any_scopeChildren (h : n.kind ≠ "yield") :
    yieldsAt n = (scopeChildren n).any yieldsAt := by
  rw [yieldsAt_eq, scopeChildren]
  cases opensScope n.kind <;> simp [h, Node.namedChildren]

variable {waiting next : List Node}

theorem SearchStep.any_yieldsAt (h : SearchStep waiting next) :
    next.any yieldsAt = waiting.any yieldsAt := by
  obtain ⟨htaken, hkind, hleft⟩ := h
  rw [htaken.any_eq, hleft.any_eq, List.any_append, List.any_cons,
    yieldsAt_eq_any_scopeChildren hkind]

theorem any_yieldsAt_run (h : Relation.ReflTransGen SearchStep waiting next) :
    next.any yieldsAt = waiting.any yieldsAt := by
  induction h with
  | refl => rfl
  | tail _ hstep ih => exact hstep.any_yieldsAt.trans ih

theorem sizes_of_perm {ns ms : List Node} (h : ns.Perm ms) : Node.sizes ns = Node.sizes ms := by
  induction h with
  | nil => rfl
  | cons n _ ih => simp only [Node.sizes, ih]
  | swap m n ns =>
    simp only [Node.sizes]
    omega
  | trans _ _ ihn ihm => exact ihn.trans ihm

theorem sizes_filter_le (keep : Node → Bool) (ns : List Node) :
    Node.sizes (ns.filter keep) ≤ Node.sizes ns := by
  induction ns with
  | nil => exact Nat.le_refl 0
  | cons n ns ih =>
    rw [List.filter_cons]
    split
    · simp only [Node.sizes]
      omega
    · simp only [Node.sizes]
      omega

theorem sizes_scopeChildren_lt (n : Node) : Node.sizes (scopeChildren n) < n.size := by
  have hnamed : Node.sizes n.namedChildren ≤ Node.sizes n.children := sizes_filter_le _ _
  have hsize := n.size_eq
  rw [scopeChildren]
  split
  · rw [Node.sizes]
    omega
  · omega

theorem SearchStep.sizes_lt (h : SearchStep waiting next) :
    Node.sizes next < Node.sizes waiting := by
  obtain @⟨n, rest, htaken, -, hleft⟩ := h
  have hwaiting : Node.sizes waiting = n.size + Node.sizes rest := by
    rw [sizes_of_perm htaken, Node.sizes]
  have hnext : Node.sizes next = Node.sizes (scopeChildren n) + Node.sizes rest := by
    rw [sizes_of_perm hleft, Node.sizes_append]
  have hscopeChildren := sizes_scopeChildren_lt n
  omega

theorem stops_or_step (waiting : List Node) :
    (∃ a, Stops waiting a) ∨ ∃ next, SearchStep waiting next := by
  cases waiting with
  | nil => exact .inl ⟨false, .empty⟩
  | cons n rest =>
    by_cases hkind : n.kind = "yield"
    · exact .inl ⟨true, .found (by simp) hkind⟩
    · exact .inr ⟨scopeChildren n ++ rest, .take (.refl _) hkind (.refl _)⟩

theorem Stops.eq_any {a : Bool} (h : Stops waiting a) : a = waiting.any yieldsAt := by
  cases h with
  | found hn hkind =>
    symm
    rw [List.any_eq_true]
    refine ⟨_, hn, ?_⟩
    rw [yieldsAt_eq, hkind]
    rfl
  | empty => rfl

theorem settles_any (waiting : List Node) : Settles waiting (waiting.any yieldsAt) where
  ends := by
    have hwf : WellFounded fun next waiting => SearchStep waiting next :=
      Subrelation.wf (fun h => SearchStep.sizes_lt h) (measure Node.sizes).wf
    exact hwf.apply waiting
  goesOn := fun later _ => stops_or_step later
  agrees := fun _ hrun _ hstop => hstop.eq_any.trans (any_yieldsAt_run hrun)

theorem yields_of_body {target body : Node} (h : target.field? "body" = some body) :
    yields target = yieldsAt body := by
  rw [yields, h]
  rfl

theorem yields_iff (target : Node) :
    yields target ↔ ∃ body, target.field? "body" = some body ∧
      ∃ p m, body.at? p = some m ∧ m.kind = "yield" ∧ InScope body p := by
  cases hbody : target.field? "body" with
  | none => simp [yields, hbody]
  | some body => simp [yields_of_body hbody, yieldsAt_iff]

theorem isGenerator_details {root : Site} {definition : Option Node}
    (h : (definition.getD root.node).kind = "function_definition") (source : String) :
    ((details root definition source).map (·.isGenerator)).getD false =
      yields (definition.getD root.node) := by
  simp only [details, h, Details.nonEmpty?]
  split
  next hempty =>
    have heq := eq_of_beq hempty
    exact (congrArg Details.isGenerator heq).symm
  next => rfl

/-- A function is told to be a generator when it has a body with a `yield` in its own scope, and it
makes no difference in which order the nodes are looked at. -/
theorem isGenerator_iff {root : Site} {definition : Option Node} {target : Node}
    (htarget : definition.getD root.node = target) (hkind : target.kind = "function_definition")
    (source : String) :
    (yields target ↔ ∃ body, target.field? "body" = some body ∧
      ∃ p m, body.at? p = some m ∧ m.kind = "yield" ∧ InScope body p) ∧
    (yields target ↔ ∃ d, details root definition source = some d ∧ d.isGenerator) ∧
    ∀ body, target.field? "body" = some body → Settles [body] (yields target) := by
  subst htarget
  refine ⟨yields_iff _, ?_, ?_⟩
  · rw [← isGenerator_details hkind source]
    cases details root definition source <;> simp
  · intro body hbody
    have hsettles := settles_any [body]
    rwa [List.any_cons, List.any_nil, Bool.or_false, ← yields_of_body hbody] at hsettles

namespace Delegating

def source : String := "def f():\n    g = lambda: (yield)\n    yield 1\n"

abbrev node := Node.clean source true

def token (kind : String) (start stop : Nat) : Node := .clean source false kind [] start stop []

def inner : Node :=
  node "lambda" ["right"] 17 32
    [token "lambda" 17 23, token ":" 23 24,
      node "parenthesized_expression" ["body"] 25 32
        [token "(" 25 26, node "yield" [] 26 31 [token "yield" 26 31], token ")" 31 32]]

def body : Node :=
  node "block" ["body"] 13 44
    [node "expression_statement" [] 13 32
      [node "assignment" [] 13 32
        [node "identifier" ["left"] 13 14 [], token "=" 15 16, inner]],
      node "expression_statement" [] 37 44
        [node "yield" [] 37 44 [token "yield" 37 42, node "integer" [] 43 44 []]]]

def function : Node :=
  node "function_definition" [] 0 44
    [token "def" 0 3, node "identifier" ["name"] 4 5 [],
      node "parameters" ["parameters"] 5 7 [token "(" 5 6, token ")" 6 7], token ":" 7 8, body]

end Delegating

open Delegating in
theorem isGenerator_iff_delegating :
    Option.getD none (Site.mk function []).node = function ∧
      function.kind = "function_definition" ∧
      (∃ d, details ⟨function, []⟩ none source = some d ∧ d.isGenerator) ∧
      Settles [body] true := by
  have htarget : Option.getD none (Site.mk function []).node = function := rfl
  obtain ⟨-, hdetails, hsettles⟩ := isGenerator_iff htarget rfl source
  have hyields : yields function := by decide
  exact ⟨htarget, rfl, hdetails.1 hyields, hyields ▸ hsettles body rfl⟩

end CodeChunks.Extraction.Python
