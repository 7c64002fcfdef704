import CodeChunks.Syntax.Node

namespace CodeChunks.Syntax

abbrev Position := List Nat

theorem Node.induction {P : Node → Prop} (mk : ∀ l cs, (∀ c ∈ cs, P c) → P (.mk l cs))
    (n : Node) : P n := by
  induction h : n.size using Nat.strongRecOn generalizing n with
  | ind k ih =>
    cases n with
    | mk l cs =>
      apply mk
      intro c hc
      exact ih c.size (h ▸ Node.size_lt_of_mem_children hc) c rfl

def Node.at? : Node → Position → Option Node
  | n, [] => some n
  | n, i :: p => (n.children[i]?).bind (·.at? p)

@[simp] theorem Node.at?_nil (n : Node) : n.at? [] = some n := rfl

@[simp] theorem Node.at?_cons (n : Node) (i : Nat) (p : Position) :
    n.at? (i :: p) = (n.children[i]?).bind (·.at? p) := rfl

def Site.at? : Site → Position → Option Site
  | s, [] => some s
  | s, i :: p => (s.node.sites[i]?).bind (·.at? p)

@[simp] theorem Site.at?_nil (s : Site) : s.at? [] = some s := rfl

@[simp] theorem Site.at?_cons (s : Site) (i : Nat) (p : Position) :
    s.at? (i :: p) = (s.node.sites[i]?).bind (·.at? p) := rfl

theorem Node.getElem?_children (n : Node) (i : Nat) :
    n.children[i]? = (n.sites[i]?).map Site.node := by
  rw [← List.getElem?_map, Node.map_node_sites]

@[simp] theorem Site.map_node_at? (s : Site) (p : Position) :
    (s.at? p).map Site.node = s.node.at? p := by
  induction p generalizing s with
  | nil => rfl
  | cons i p ih =>
    rw [Site.at?_cons, Node.at?_cons, Node.getElem?_children]
    cases s.node.sites[i]? with
    | none => rfl
    | some t => exact ih t

end CodeChunks.Syntax
