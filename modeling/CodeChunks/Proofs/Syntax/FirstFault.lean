import CodeChunks.Proofs.Registry.Steps
import CodeChunks.Proofs.Syntax.Layout

namespace CodeChunks.Syntax

namespace Node

@[simp] theorem map_node_allSites (before : List Node) (n : Node) :
    (n.allSites before).map Site.node = n.nodes := by
  cases n
  simp [nodes, allSites]

theorem map_node_allSitesFrom (before ns : List Node) :
    (allSitesFrom before ns).map Site.node = ns.flatMap nodes := by
  induction ns generalizing before with
  | nil => rfl
  | cons n ns ih => simp [allSitesFrom, ih]

theorem nodes_eq (n : Node) : n.nodes = n :: n.children.flatMap nodes := by
  cases n
  rw [nodes, allSites, List.map_cons, map_node_allSitesFrom]
  rfl

theorem mem_nodes_self (n : Node) : n ∈ n.nodes := by
  rw [nodes_eq]
  exact List.mem_cons_self ..

theorem mem_nodes_of_mem_children {n c m : Node} (hc : c ∈ n.children) (hm : m ∈ c.nodes) :
    m ∈ n.nodes := by
  rw [nodes_eq]
  exact List.mem_cons_of_mem _ (List.mem_flatMap.2 ⟨c, hc, hm⟩)

def MarkedAbove (root : Node) : Prop :=
  ∀ n ∈ root.nodes, ∀ c ∈ n.children, ∀ m ∈ c.nodes, m.isFault → n.label.faulty

theorem MarkedAbove.of_mem_children {n c : Node} (h : n.MarkedAbove) (hc : c ∈ n.children) :
    c.MarkedAbove :=
  fun m hm => h m (mem_nodes_of_mem_children hc hm)

/-- The marks tell where faults are: the nodes above a fault are marked, where the root counts as
above itself, and a node that is marked has a fault at or below it. -/
structure Marked (root : Node) : Prop where
  above : root.MarkedAbove
  top : root.isFault → root.label.faulty
  below : ∀ n ∈ root.nodes, n.label.faulty → ∃ m ∈ n.nodes, m.isFault

theorem Marked.faulty_iff {root : Node} (h : root.Marked) :
    root.label.faulty ↔ ∃ m ∈ root.nodes, m.isFault := by
  constructor
  · exact h.below root root.mem_nodes_self
  · rintro ⟨m, hm, hfault⟩
    rw [nodes_eq, List.mem_cons, List.mem_flatMap] at hm
    rcases hm with rfl | ⟨c, hc, hm⟩
    · exact h.top hfault
    · exact h.above root root.mem_nodes_self c hc m hm hfault

end Node

open Node

theorem firstFault?_eq_find? {ns : List Node} (h : ∀ n ∈ ns, n.MarkedAbove) :
    firstFault? ns = (ns.flatMap nodes).find? isFault := by
  fun_induction firstFault? ns with
  | case1 => rfl
  | case2 n rest hfault =>
    rw [List.flatMap_cons, nodes_eq, List.cons_append, List.find?_cons_of_pos hfault]
  | case3 n rest hfault hfaulty ih =>
    rw [ih, List.flatMap_cons, nodes_eq, List.cons_append, List.find?_cons_of_neg hfault,
      List.flatMap_append]
    intro c hc
    rcases List.mem_append.1 hc with hc | hc
    · exact (h n (by simp)).of_mem_children hc
    · exact h c (by simp [hc])
  -- The subtree is left out: a fault in it would have marked its root.
  | case4 n rest hfault hfaulty ih =>
    have hclean : (n.children.flatMap nodes).find? isFault = none := by
      rw [List.find?_eq_none]
      intro m hm hm'
      obtain ⟨c, hc, hm⟩ := List.mem_flatMap.1 hm
      exact hfaulty (h n (by simp) n n.mem_nodes_self c hc m hm hm')
    rw [ih fun c hc => h c (by simp [hc]), List.flatMap_cons, nodes_eq, List.cons_append,
      List.find?_cons_of_neg hfault, List.find?_append, hclean, Option.none_or]

theorem Node.Marked.fault?_eq {root : Node} (h : root.Marked) :
    root.fault? = (root.nodes.find? isFault).map Fault.ofNode := by
  have hsearch : firstFault? [root] = root.nodes.find? isFault := by
    rw [firstFault?_eq_find? (by simpa using h.above), List.flatMap_singleton]
  rw [Node.fault?, hsearch]
  by_cases hfaulty : root.label.faulty
  · obtain ⟨m, hm⟩ : ∃ m, root.nodes.find? isFault = some m := by
      rw [← Option.isSome_iff_exists, List.find?_isSome]
      exact h.faulty_iff.1 hfaulty
    rw [if_pos hfaulty, hm]
    rfl
  · have hnone : root.nodes.find? isFault = none := by
      rw [List.find?_eq_none]
      exact fun m hm hfault => hfaulty (h.faulty_iff.2 ⟨m, hm, hfault⟩)
    rw [if_neg hfaulty, hnone]
    rfl

end CodeChunks.Syntax

namespace CodeChunks

open Syntax

def faultError (g : Grammar) (source : String) (n : Node) : ChunkError :=
  .parse
    (g.name ++ " grammar: " ++
      if n.label.missing then "missing " ++ n.kind else "unexpected syntax")
    (Text.row source n.start + 1) (Text.column source n.start + 1)

theorem ofNode_eq_faultError (g : Grammar) {source : String} {n : Node}
    (hpoints : n.Pointed source) :
    ChunkError.parse ((Fault.ofNode n).message g) (Fault.ofNode n).line (Fault.ofNode n).column =
      faultError g source n := by
  have hline : n.line = Text.row source n.start + 1 := congrArg (· + 1) hpoints.startRow_eq
  have hcolumn : n.label.startPoint.column = Text.column source n.start :=
    congrArg Text.Point.column hpoints.start
  rw [Fault.ofNode, faultError, hline, hcolumn]
  by_cases hmissing : n.label.missing
  · rw [if_pos hmissing, if_pos hmissing]
    rfl
  · rw [if_neg hmissing, if_neg hmissing]
    rfl

theorem ParserLibrary.accept_of_marked (policy : Policy) {source : String} {root : Node}
    (hpoints : ∀ n ∈ root.nodes, n.Pointed source) (hmarks : root.Marked) :
    accept policy (some root) =
      match root.nodes.find? Node.isFault with
      | none => .ok root
      | some n => .error (faultError policy.grammar source n) := by
  simp only [accept, hmarks.fault?_eq]
  cases hfind : root.nodes.find? Node.isFault with
  | none => rfl
  | some n =>
    have hn := hpoints n (List.mem_of_find?_eq_some hfind)
    exact congrArg Except.error (ofNode_eq_faultError policy.grammar hn)

/-- A text is accepted when no node of its tree is a fault, and else refused for the first fault in
document order, which is always found. -/
theorem Registry.parse_first_fault {r : Registry} (hr : r.Filed) {lib : ParserLibrary}
    (hlib : lib.Dependable) (m : Memory) (policy : Policy) (source : String) {root : Node}
    (htree : lib.tree? policy.grammar [] source = some root)
    (hpoints : ∀ n ∈ root.nodes, n.Pointed source) (hmarks : root.Marked) :
    ((r.parse lib m policy source).2.2.1 = .ok root ↔ ∀ n ∈ root.nodes, ¬n.isFault) ∧
      (r.parse lib m policy source).2.2.1 =
        (match root.nodes.find? Node.isFault with
        | none => .ok root
        | some n => .error (faultError policy.grammar source n)) ∧
      root.fault? ≠ some .unlocated := by
  have hanswer : (r.parse lib m policy source).2.2.1 =
      match root.nodes.find? Node.isFault with
      | none => .ok root
      | some n => .error (faultError policy.grammar source n) := by
    rw [parse_answer hr hlib, ParserLibrary.parse, hlib.takes, htree]
    exact ParserLibrary.accept_of_marked policy hpoints hmarks
  refine ⟨?_, hanswer, ?_⟩
  · rw [hanswer, ← List.find?_eq_none]
    cases root.nodes.find? Node.isFault with
    | none => simp
    | some n => simp
  · rw [hmarks.fault?_eq]
    intro h
    obtain ⟨n, -, hn⟩ := Option.map_eq_some_iff.1 h
    rw [Fault.ofNode] at hn
    split at hn <;> cases hn

namespace Unclosed

def source : String := "f();\ng(\n\x7d\n"

def node (kind : String) (start stop : Nat) (faulty : Bool) (children : List Node) : Node :=
  .mk { kind, fields := [], start, stop, startPoint := Text.point source start,
        stopPoint := Text.point source stop, named := true, error := false, missing := false,
        faulty } children

def lackingBracket : Node :=
  .mk { kind := ")", fields := [], start := 7, stop := 7, startPoint := ⟨1, 2⟩,
        stopPoint := ⟨1, 2⟩, named := false, error := false, missing := true, faulty := true } []

def strayBrace : Node :=
  .mk { kind := "ERROR", fields := [], start := 8, stop := 9, startPoint := ⟨2, 0⟩,
        stopPoint := ⟨2, 1⟩, named := true, error := true, missing := false, faulty := true } []

def tree : Node :=
  node "program" 0 10 true
    [node "expression_statement" 0 4 false [node "call_expression" 0 3 false []],
      node "expression_statement" 5 7 true
        [node "identifier" 5 6 false [], node "arguments" 6 7 true [lackingBracket]],
      strayBrace]

def parses : ParserLibrary := .ofTable fun _ _ => some tree

theorem tree_pointed : ∀ n ∈ tree.nodes, n.Pointed source := by decide +kernel

theorem tree_marked : tree.Marked where
  above := by unfold Node.MarkedAbove; decide
  top := by decide
  below := by decide

end Unclosed

open Unclosed in
theorem Registry.parse_first_fault_unclosed :
    (Registry.ofExtensions []).Filed ∧ parses.Dependable ∧
      parses.tree? .javascript [] source = some tree ∧ (∀ n ∈ tree.nodes, n.Pointed source) ∧
      tree.Marked ∧
      (Registry.parse (.ofExtensions []) parses [] (.ofLanguage .javascript) source).2.2.1 =
        .error (.parse "javascript grammar: missing )" 2 3) := by
  have hfiled := Registry.filed_ofExtensions []
  have hlib : parses.Dependable := ParserLibrary.dependable_ofTable _
  have hanswer := (Registry.parse_first_fault hfiled hlib [] (.ofLanguage .javascript) source rfl
    tree_pointed tree_marked).2.1
  exact ⟨hfiled, hlib, rfl, tree_pointed, tree_marked, hanswer.trans rfl⟩

end CodeChunks
