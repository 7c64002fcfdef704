import CodeChunks.Proofs.Text.Slices
import CodeChunks.Syntax.Node
import Mathlib.Logic.Relation

namespace CodeChunks.Syntax

def Node.Below (m n : Node) : Prop := Relation.TransGen (fun a b => b ∈ a.children) n m

inductive Node.Nested (source : String) : Node → Prop
  | mk {label : Label} {children : List Node}
      (start_boundary : Text.IsBoundary source label.start)
      (stop_boundary : Text.IsBoundary source label.stop)
      (inside : ∀ c ∈ children, label.start ≤ c.start ∧ c.stop ≤ label.stop)
      (below : ∀ c ∈ children, Nested source c) : Nested source (.mk label children)

namespace Node

variable {source : String} {m n c : Node}

theorem below_of_mem_children (h : c ∈ n.children) : c.Below n := .single h

theorem Below.of_mem_children (hm : m.Below c) (hc : c ∈ n.children) : m.Below n := .head hc hm

theorem mem_children_of_field? {name : String} (h : n.field? name = some c) : c ∈ n.children :=
  List.mem_of_find?_eq_some h

theorem below_of_field? {name : String} (h : n.field? name = some c) : c.Below n :=
  below_of_mem_children (mem_children_of_field? h)

namespace Nested

theorem boundaries (h : n.Nested source) :
    Text.IsBoundary source n.start ∧ Text.IsBoundary source n.stop := by
  cases h with
  | mk start_boundary stop_boundary => exact ⟨start_boundary, stop_boundary⟩

theorem of_mem_children (h : n.Nested source) (hc : c ∈ n.children) : c.Nested source := by
  cases h with
  | mk _ _ _ below => exact below c hc

theorem span_of_mem_children (h : n.Nested source) (hc : c ∈ n.children) :
    n.start ≤ c.start ∧ c.stop ≤ n.stop := by
  cases h with
  | mk _ _ inside => exact inside c hc

theorem text_infix_of_mem_children (h : n.Nested source) (hc : c ∈ n.children) :
    (c.text source).toList <:+: (n.text source).toList := by
  obtain ⟨hstart, hstop⟩ := h.boundaries
  obtain ⟨hcstart, hcstop⟩ := (h.of_mem_children hc).boundaries
  obtain ⟨hle, hge⟩ := h.span_of_mem_children hc
  exact Text.slice_infix hstart hstop hcstart hcstop hle hge

theorem text_infix_of_below (h : n.Nested source) (hm : m.Below n) :
    (m.text source).toList <:+: (n.text source).toList := by
  induction hm using Relation.TransGen.head_induction_on with
  | single hchild => exact h.text_infix_of_mem_children hchild
  | head hchild _ ih =>
    exact (ih (h.of_mem_children hchild)).trans (h.text_infix_of_mem_children hchild)

end Nested

end Node

end CodeChunks.Syntax
