import CodeChunks.Text.Lines

/-!
Syntax trees. A node carries its kind, the names of the fields it fills in its parent, its span in
bytes and in rows and columns, and what the parser says about errors; a site is a node with the
siblings before it.
-/

namespace CodeChunks.Syntax

structure Label where
  kind : String
  fields : List String
  start : Nat
  stop : Nat
  startPoint : Text.Point
  stopPoint : Text.Point
  named : Bool
  error : Bool
  missing : Bool
  /-- An error or missing node is at or below this one. -/
  faulty : Bool
  deriving DecidableEq, Repr

inductive Node where
  | mk (label : Label) (children : List Node)
  deriving Repr

namespace Node

def label : Node → Label
  | .mk l _ => l

def children : Node → List Node
  | .mk _ cs => cs

def kind (n : Node) : String := n.label.kind

def start (n : Node) : Nat := n.label.start

def stop (n : Node) : Nat := n.label.stop

def isNamed (n : Node) : Bool := n.label.named

def isFault (n : Node) : Bool := n.label.error || n.label.missing

@[simp] theorem label_mk (l : Label) (cs : List Node) : (mk l cs).label = l := rfl

@[simp] theorem children_mk (l : Label) (cs : List Node) : (mk l cs).children = cs := rfl

def namedChildren (n : Node) : List Node := n.children.filter isNamed

def firstNamed? (n : Node) : Option Node := n.children.find? isNamed

def firstNamedOfKind? (n : Node) (kind : String) : Option Node :=
  n.namedChildren.find? (·.kind == kind)

def field? (n : Node) (name : String) : Option Node :=
  n.children.find? (name ∈ ·.label.fields)

def hasToken (n : Node) (token : String) : Bool :=
  n.children.any fun c => !c.isNamed && c.kind == token

def text (n : Node) (source : String) : String := Text.slice source n.start n.stop

def startRow (n : Node) : Nat := n.label.startPoint.row

def stopRow (n : Node) : Nat := n.label.stopPoint.row

def line (n : Node) : Nat := n.startRow + 1

/-- First and last line, counting from one; a span that stops at the start of a line stops on the
line before it. -/
def lineSpan (n : Node) : Nat × Nat :=
  let first := n.line
  let last := n.stopRow
  if n.label.stopPoint.column = 0 ∧ last + 1 > first then (first, last) else (first, last + 1)

mutual

def size : Node → Nat
  | .mk _ cs => sizes cs + 1

def sizes : List Node → Nat
  | [] => 0
  | c :: cs => c.size + sizes cs

end

theorem size_pos (n : Node) : 0 < n.size := by
  cases n; simp [size]

theorem size_eq (n : Node) : n.size = sizes n.children + 1 := by
  cases n; simp [size]

@[simp] theorem sizes_append (ms ns : List Node) : sizes (ms ++ ns) = sizes ms + sizes ns := by
  induction ms with
  | nil => simp [sizes]
  | cons m ms ih => simp [sizes, ih, Nat.add_assoc]

theorem size_le_sizes {c : Node} {cs : List Node} (h : c ∈ cs) : c.size ≤ sizes cs := by
  induction cs with
  | nil => cases h
  | cons d ds ih =>
    simp only [sizes]
    rcases List.mem_cons.1 h with rfl | h
    · omega
    · have := ih h; omega

theorem size_lt_of_mem_children {n c : Node} (h : c ∈ n.children) : c.size < n.size := by
  have := size_le_sizes h
  have := n.size_eq
  omega

theorem size_lt_of_field? {n c : Node} {name : String} (h : n.field? name = some c) :
    c.size < n.size :=
  size_lt_of_mem_children (List.mem_of_find?_eq_some h)

end Node

/-- A node and the siblings before it, the nearest first. -/
structure Site where
  node : Node
  before : List Node

def sitesFrom (before : List Node) : List Node → List Site
  | [] => []
  | n :: ns => ⟨n, before⟩ :: sitesFrom (n :: before) ns

@[simp] theorem map_node_sitesFrom (before ns : List Node) :
    (sitesFrom before ns).map Site.node = ns := by
  induction ns generalizing before with
  | nil => rfl
  | cons n ns ih => simp [sitesFrom, ih]

def Node.sites (n : Node) : List Site := sitesFrom [] n.children

@[simp] theorem Node.map_node_sites (n : Node) : n.sites.map Site.node = n.children :=
  map_node_sitesFrom [] n.children

mutual

def Node.allSites (before : List Node) : Node → List Site
  | .mk l cs => ⟨.mk l cs, before⟩ :: allSitesFrom [] cs

def allSitesFrom (before : List Node) : List Node → List Site
  | [] => []
  | n :: ns => n.allSites before ++ allSitesFrom (n :: before) ns

end

def Node.nodes (n : Node) : List Node := (n.allSites []).map Site.node

/-- A line of the flat form of a tree: a node and how many children follow it. -/
structure Row where
  label : Label
  childCount : Nat

def Row.attach (r : Row) (trees : List Node) : Option (List Node) :=
  if r.childCount ≤ trees.length then
    some (.mk r.label (trees.take r.childCount) :: trees.drop r.childCount)
  else none

def Node.ofRows? (rows : List Row) : Option Node :=
  match rows.foldr (fun r trees => trees.bind r.attach) (some []) with
  | some [n] => some n
  | _ => none

end CodeChunks.Syntax
