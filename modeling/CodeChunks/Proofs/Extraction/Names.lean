import CodeChunks.Proofs.Extraction.Spans
import CodeChunks.Proofs.Extraction.Topmost
import CodeChunks.Proofs.Syntax.Nesting
import Mathlib.Data.List.Forall2

namespace CodeChunks.Extraction

open Syntax

section

variable {l : Language} {source name : String} {n c : Node}

def fixedNames : List String := ["anonymous", "import", "package", "export"]

/-- The name is the text of a node below `n`, as it stands or trimmed. -/
def NamedBelow (source : String) (n : Node) (name : String) : Prop :=
  ∃ m : Node, m.Below n ∧ (name = m.text source ∨ name = Text.trim (m.text source))

theorem NamedBelow.text (h : c.Below n) : NamedBelow source n (c.text source) :=
  ⟨c, h, .inl rfl⟩

theorem NamedBelow.of_trimmed? (h : c.Below n) (hname : Text.trimmed? (c.text source) = some name) :
    NamedBelow source n name :=
  ⟨c, h, .inr (Text.eq_trim_of_trimmed? hname)⟩

theorem NamedBelow.of_mem_children (h : NamedBelow source c name) (hc : c ∈ n.children) :
    NamedBelow source n name := by
  obtain ⟨m, hm, hname⟩ := h
  exact ⟨m, hm.of_mem_children hc, hname⟩

theorem namedBelow_definitionName (h : definitionName n source = some name) :
    NamedBelow source n name := by
  rw [definitionName] at h
  split at h
  next m hm => exact .of_trimmed? (Node.below_of_field? hm) h
  next =>
    obtain ⟨m, hm, hname⟩ := Option.bind_eq_some_iff.1 h
    exact .of_trimmed? (Node.below_of_mem_children (List.mem_of_find?_eq_some hm)) hname

theorem namedBelow_fieldName (h : fieldName n source = some name) : NamedBelow source n name := by
  rw [fieldName] at h
  split at h
  next m hm =>
    rcases Option.or_eq_some_iff.1 hm with hproperty | ⟨-, hname⟩
    · exact .of_trimmed? (Node.below_of_field? hproperty) h
    · exact .of_trimmed? (Node.below_of_field? hname) h
  next =>
    obtain ⟨m, hm, hname⟩ := Option.bind_eq_some_iff.1 h
    obtain ⟨declarator, hdeclarator, hm⟩ := Option.bind_eq_some_iff.1 hm
    have hchild := Node.mem_children_of_field? hdeclarator
    exact .of_trimmed? ((Node.below_of_field? hm).of_mem_children hchild) hname

theorem namedBelow_filter_field? {f : String} {p : Node → Bool} (hc : c ∈ n.children)
    (h : ((c.field? f).filter p).map (·.text source) = some name) : NamedBelow source n name := by
  obtain ⟨m, hm, rfl⟩ := Option.map_eq_some_iff.1 h
  have hfield := (Option.filter_eq_some_iff.1 hm).1
  exact .text ((Node.below_of_field? hfield).of_mem_children hc)

theorem namedBelow_describeDeclarator (h : (describeDeclarator n source).name = some name) :
    NamedBelow source n name := by
  rw [describeDeclarator] at h
  split at h
  next => cases h
  next declarator hdeclarator =>
    have hchild : declarator ∈ n.children :=
      List.mem_of_mem_filter (List.mem_of_find?_eq_some hdeclarator)
    apply namedBelow_filter_field? hchild
    dsimp only at h
    split at h
    · exact h
    · exact h

theorem namedBelow_describeExpression (h : (describeExpression n source).name = some name) :
    NamedBelow source n name := by
  rw [describeExpression] at h
  split at h
  next assignment hassignment =>
    have hfirst := (Option.filter_eq_some_iff.1 hassignment).1
    exact namedBelow_filter_field? (List.mem_of_find?_eq_some hfirst) h
  next => cases h

theorem Kind.name_mem_fixedNames {kind : Kind} (h : kind.nameRule = .statement) :
    kind.chunkType.name ∈ fixedNames := by
  revert h
  cases kind <;> decide

theorem name_describe (h : (describe l source n).name = some name) :
    name ∈ fixedNames ∨ NamedBelow source n name := by
  fun_induction describe l source n with
  | case1 => exact .inr (namedBelow_definitionName h)
  | case2 => exact .inr (namedBelow_definitionName h)
  | case3 => exact .inr (namedBelow_describeDeclarator h)
  | case4 => exact .inr (namedBelow_fieldName h)
  | case5 n kind _ hrule =>
    cases h
    exact .inl (Kind.name_mem_fixedNames hrule)
  | case6 => exact .inr (namedBelow_describeExpression h)
  -- An export that finds no name inside is called by its own word.
  | case7 =>
    cases h
    exact .inl (by decide)
  -- What is below the definition that a wrapper wraps is below the wrapper.
  | case8 n _ _ _ declaration hfield _ _ _ ih =>
    exact (ih h).imp_right (·.of_mem_children (Node.mem_children_of_field? hfield))
  | case9 =>
    cases h
    exact .inl (by decide)
  | case10 => cases h
  | case11 n _ _ _ definition hfield ih =>
    exact (ih h).imp_right (·.of_mem_children (Node.mem_children_of_field? hfield))

/-- The node `m` fills the name field of `n`, where that is what `n` is named by, or of the
definition that `n` wraps. -/
inductive Defines (l : Language) : Node → Node → Prop
  | definition {n m : Node}
      (rule : ∀ kind, l.classify n.kind = some kind → kind.nameRule = .nameField)
      (field : n.field? "name" = some m) : Defines l n m
  | exported {n d m : Node} {kind : Kind} (chunked : l.classify n.kind = some kind)
      (rule : kind.nameRule = .export) (field : n.field? "declaration" = some d)
      (inner : Defines l d m) : Defines l n m
  | decorated {n d m : Node} {kind : Kind} (chunked : l.classify n.kind = some kind)
      (rule : kind.nameRule = .decorated) (field : n.field? "definition" = some d)
      (inner : Defines l d m) : Defines l n m

theorem Defines.name_describe {m : Node} (h : Defines l n m) (hm : Text.trim (m.text source) ≠ "") :
    (describe l source n).name = some (Text.trim (m.text source)) := by
  induction h with
  | @definition n m rule field =>
    have hname : definitionName n source = some (Text.trim (m.text source)) := by
      rw [definitionName, field]
      exact Text.trimmed?_of_ne hm
    rw [describe]
    cases hkind : l.classify n.kind with
    | none => exact hname
    | some kind =>
      simp only [rule kind hkind]
      exact hname
  | exported chunked rule field _ ih =>
    rw [describe]
    simp only [chunked, rule]
    split
    next hnone => cases field.symm.trans hnone
    next _ hsome =>
      cases field.symm.trans hsome
      rw [if_pos (by simp [ih hm])]
      exact ih hm
  | decorated chunked rule field _ ih =>
    rw [describe]
    simp only [chunked, rule]
    split
    next hnone => cases field.symm.trans hnone
    next _ hsome =>
      cases field.symm.trans hsome
      exact ih hm

theorem of_mem_chunkRoots {P : Node → Prop} (hP : ∀ n, P n → ∀ c ∈ n.children, P c)
    {ss : List Site} (hss : ∀ s ∈ ss, P s.node) {r : Site × Kind} (hr : r ∈ chunkRoots l ss) :
    P r.1.node := by
  fun_induction chunkRoots l ss with
  | case1 => cases hr
  | case2 s rest kind h ih =>
    rcases List.mem_cons.1 hr with rfl | hr
    · exact hss s (by simp)
    · exact ih (fun t ht => hss t (by simp [ht])) hr
  | case3 s rest h ih =>
    apply ih _ hr
    intro t ht
    rcases List.mem_append.1 ht with ht | ht
    · exact hP s.node (hss s (by simp)) t.node (mem_sites_node ht)
    · exact hss t (by simp [ht])

theorem toList_infix_of_namedBelow (hn : n.Nested source) (h : NamedBelow source n name) :
    name.toList <:+: (n.text source).toList := by
  obtain ⟨m, hm, rfl | rfl⟩ := h
  · exact hn.text_infix_of_below hm
  · exact (Text.trim_infix _).trans (hn.text_infix_of_below hm)

theorem name_rawChunk (withDetails : Bool) (s : Site) :
    (rawChunk l withDetails source s).name ∈ fixedNames ∨
      NamedBelow source s.node (rawChunk l withDetails source s).name := by
  have hname : (rawChunk l withDetails source s).name =
      (describe l source s.node).name.getD anonymous := rfl
  rw [hname]
  cases h : (describe l source s.node).name with
  | none => exact .inl (by decide)
  | some name => exact name_describe h

end

/-- A chunk has a fixed name or that of a node below its root, which stands in its content; and
where a name field is to be found through all that wraps the definition, it is the name. -/
theorem extract_names_within (policy : Policy) (withDetails : Bool) (source filePath : String)
    {root : Node} (hroot : root.Nested source) :
    List.Forall₂
      (fun r c =>
        c.content = r.1.node.text source ∧
        (c.name ∈ fixedNames ∨
          NamedBelow source r.1.node c.name ∧ c.name.toList <:+: c.content.toList) ∧
        ∀ m, Defines policy.language r.1.node m → Text.trim (m.text source) ≠ "" →
          c.name = Text.trim (m.text source))
      (chunkRoots policy.language [⟨root, []⟩])
      (extract policy.language withDetails source filePath root).raw := by
  rw [extract, List.forall₂_map_right_iff, List.forall₂_same]
  intro r hr
  have hnested : r.1.node.Nested source :=
    of_mem_chunkRoots (fun _ hn _ hc => hn.of_mem_children hc) (by simpa using hroot) hr
  refine ⟨rfl, ?_, fun m hm hne => congrArg (·.getD anonymous) (hm.name_describe hne)⟩
  exact (name_rawChunk withDetails r.1).imp_right fun h => ⟨h, toList_infix_of_namedBelow hnested h⟩

namespace Decorated

def source : String := "@cache\ndef π(): pass\n"

abbrev node := Node.clean source true

def identifier : Node := node "identifier" ["name"] 11 13 []

def function : Node :=
  node "function_definition" ["definition"] 7 21
    [identifier, node "parameters" ["parameters"] 13 15 [], node "block" ["body"] 17 21 []]

def definition : Node :=
  node "decorated_definition" [] 0 21 [node "decorator" [] 0 6 [], function]

def tree : Node := node "module" [] 0 22 [definition]

theorem function_nested : function.Nested source := by
  refine .mk (by decide +kernel) (by decide +kernel) (by decide) ?_
  simp only [List.forall_mem_cons]
  refine ⟨?_, ?_, ?_, by simp⟩
  all_goals exact .mk (by decide +kernel) (by decide +kernel) (by simp) (by simp)

theorem tree_nested : tree.Nested source := by
  have hdecorator : (node "decorator" [] 0 6 []).Nested source :=
    .mk (by decide +kernel) (by decide +kernel) (by simp) (by simp)
  have hdefinition : definition.Nested source :=
    .mk (by decide +kernel) (by decide +kernel) (by decide)
      (by simp [hdecorator, function_nested])
  exact .mk (by decide +kernel) (by decide +kernel) (by decide) (by simp [hdefinition])

end Decorated

open Decorated in
theorem extract_names_within_decorated :
    tree.Nested source ∧ Defines .python definition identifier ∧
      (extract .python true source "m.py" tree).raw.map (·.name) = ["π"] := by
  have hkind : Language.python.classify definition.kind = some .decoratedDefinition := by decide
  have hdefines : Defines .python definition identifier :=
    .decorated hkind rfl rfl (.definition (by decide) rfl)
  have hname : Text.trim (identifier.text source) = "π" := by decide +kernel
  have hroots : chunkRoots .python [⟨tree, []⟩] =
      [(⟨definition, []⟩, .decoratedDefinition)] := by
    rw [chunkRoots_cons_of_not_chunkable _ (by decide)]
    exact (chunkRoots_cons_of_chunkable _ hkind []).trans (by rw [chunkRoots])
  have hnames := extract_names_within (.ofLanguage .python) true source "m.py" tree_nested
  simp only [Policy.ofLanguage, hroots] at hnames
  obtain ⟨c, cs, ⟨-, -, hc⟩, hcs, hraw⟩ := List.forall₂_cons_left_iff.1 hnames
  rw [List.forall₂_nil_left_iff.1 hcs] at hraw
  refine ⟨tree_nested, hdefines, ?_⟩
  rw [hraw, List.map_singleton, hc identifier hdefines (by rw [hname]; decide), hname]

end CodeChunks.Extraction
