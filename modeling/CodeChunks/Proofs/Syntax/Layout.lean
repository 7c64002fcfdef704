import CodeChunks.Proofs.Text.Rows
import CodeChunks.Syntax.Node

namespace CodeChunks.Syntax

/-- The points of the node are the rows and columns at which its span starts and stops. -/
structure Node.Pointed (source : String) (n : Node) : Prop where
  start : n.label.startPoint = Text.point source n.start
  stop : n.label.stopPoint = Text.point source n.stop

theorem Node.pointed_iff {source : String} {n : Node} :
    n.Pointed source ↔ n.label.startPoint = Text.point source n.start ∧
      n.label.stopPoint = Text.point source n.stop :=
  ⟨fun h => ⟨h.start, h.stop⟩, fun ⟨hstart, hstop⟩ => ⟨hstart, hstop⟩⟩

instance (source : String) (n : Node) : Decidable (n.Pointed source) :=
  decidable_of_iff _ Node.pointed_iff.symm

def Node.clean (source : String) (named : Bool) (kind : String) (fields : List String)
    (start stop : Nat) (children : List Node) : Node :=
  .mk { kind, fields, start, stop, startPoint := Text.point source start,
        stopPoint := Text.point source stop, named, error := false, missing := false,
        faulty := false } children

theorem Node.pointed_clean {source : String} {named : Bool} {kind : String}
    {fields : List String} {start stop : Nat} {children : List Node} :
    (Node.clean source named kind fields start stop children).Pointed source :=
  ⟨rfl, rfl⟩

theorem Node.Pointed.startRow_eq {source : String} {n : Node} (h : n.Pointed source) :
    n.startRow = Text.row source n.start :=
  congrArg Text.Point.row h.start

theorem Node.Pointed.stopRow_eq {source : String} {n : Node} (h : n.Pointed source) :
    n.stopRow = Text.row source n.stop :=
  congrArg Text.Point.row h.stop

theorem Node.Pointed.stopColumn_eq {source : String} {n : Node} (h : n.Pointed source) :
    n.label.stopPoint.column = Text.column source n.stop :=
  congrArg Text.Point.column h.stop

/-- The span of each node is cut out of the text between characters and its points tell where,
children lie inside their parent, and each of them ends before the next one starts. -/
inductive Node.WellFormed (source : String) : Node → Prop
  | mk {label : Label} {children : List Node}
      (start_le_stop : label.start ≤ label.stop)
      (start_boundary : Text.IsBoundary source label.start)
      (stop_boundary : Text.IsBoundary source label.stop)
      (pointed : (Node.mk label children).Pointed source)
      (inside : ∀ c ∈ children, label.start ≤ c.start ∧ c.stop ≤ label.stop)
      (apart : children.Pairwise fun a b => a.stop ≤ b.start)
      (below : ∀ c ∈ children, WellFormed source c) : WellFormed source (.mk label children)

theorem Node.wellFormed_mk_iff {source : String} {label : Label} {children : List Node} :
    (Node.mk label children).WellFormed source ↔
      label.start ≤ label.stop ∧ Text.IsBoundary source label.start ∧
        Text.IsBoundary source label.stop ∧ (Node.mk label children).Pointed source ∧
        (∀ c ∈ children, label.start ≤ c.start ∧ c.stop ≤ label.stop) ∧
        children.Pairwise (fun a b => a.stop ≤ b.start) ∧
        ∀ c ∈ children, c.WellFormed source :=
  ⟨fun | .mk h₁ h₂ h₃ h₄ h₅ h₆ h₇ => ⟨h₁, h₂, h₃, h₄, h₅, h₆, h₇⟩,
    fun ⟨h₁, h₂, h₃, h₄, h₅, h₆, h₇⟩ => .mk h₁ h₂ h₃ h₄ h₅ h₆ h₇⟩

namespace Node.WellFormed

variable {source : String} {n : Node}

theorem start_le (h : n.WellFormed source) : n.start ≤ n.stop := by
  cases h with
  | mk start_le_stop => exact start_le_stop

theorem stop_le_length (h : n.WellFormed source) : n.stop ≤ (Text.bytes source).length := by
  cases h with
  | mk _ _ stop_boundary => exact stop_boundary.le_length

theorem pointed (h : n.WellFormed source) : n.Pointed source := by
  cases h with
  | mk _ _ _ pointed => exact pointed

theorem of_mem_children (h : n.WellFormed source) {c : Node} (hc : c ∈ n.children) :
    c.WellFormed source := by
  cases h with
  | mk _ _ _ _ _ _ below => exact below c hc

theorem span_of_mem_children (h : n.WellFormed source) {c : Node} (hc : c ∈ n.children) :
    n.start ≤ c.start ∧ c.stop ≤ n.stop := by
  cases h with
  | mk _ _ _ _ inside => exact inside c hc

theorem pairwise_children (h : n.WellFormed source) :
    n.children.Pairwise fun a b => a.stop ≤ b.start := by
  cases h with
  | mk _ _ _ _ _ apart => exact apart

end Node.WellFormed

theorem Node.lineSpan_eq {n : Node} {source : String} (hpoints : n.Pointed source)
    (h : n.start < n.stop) (hstop : n.stop ≤ (Text.bytes source).length) :
    n.lineSpan = (Text.row source n.start + 1, Text.row source (n.stop - 1) + 1) := by
  obtain ⟨last, hlast⟩ : ∃ last, n.stop = last + 1 := ⟨n.stop - 1, by omega⟩
  have hlt : last < (Text.bytes source).length := by omega
  have hrow := Text.row_succ hlt
  have hmono := Text.row_mono source (show n.start ≤ last by omega)
  rw [Node.lineSpan, Node.line, hpoints.startRow_eq, hpoints.stopRow_eq, hpoints.stopColumn_eq,
    hlast, Nat.add_sub_cancel]
  by_cases hbreak : (Text.bytes source)[last] = Text.newline
  · have hcolumn := (Text.column_succ_eq_zero_iff hlt).2 hbreak
    rw [if_pos hbreak] at hrow
    rw [if_pos ⟨hcolumn, by omega⟩, hrow]
  · have hcolumn := mt (Text.column_succ_eq_zero_iff hlt).1 hbreak
    rw [if_neg hbreak] at hrow
    rw [if_neg fun hc => hcolumn hc.1, hrow]

end CodeChunks.Syntax
