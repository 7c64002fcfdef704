import CodeChunks.Proofs.Extraction.ImportStatements
import CodeChunks.Proofs.Syntax.Position
import Mathlib.Data.List.Basic

/-!
The record of an import statement. A binding is a node of the statement that brings in a name, told
by its position and by the kinds of the nodes on the way to it. Main statement: the record has one
specifier for each binding, in document order, and the module that the statement names or, failing
that, the first of its `require` clauses that names one.
-/

namespace CodeChunks

namespace Syntax.Node

def NamedChild (n : Node) (i : Nat) (c : Node) : Prop := n.children[i]? = some c ∧ c.isNamed

def FirstNamed (n : Node) (kind : String) (c : Node) : Prop :=
  ∃ before after, n.children = before ++ c :: after ∧ c.isNamed ∧ c.kind = kind ∧
    ∀ d ∈ before, d.isNamed → d.kind ≠ kind

theorem firstNamedOfKind?_eq_some_iff {n c : Node} {kind : String} :
    n.firstNamedOfKind? kind = some c ↔ n.FirstNamed kind c := by
  rw [firstNamedOfKind?, namedChildren, List.find?_filter, List.find?_eq_some_iff_append]
  simp only [FirstNamed, beq_iff_eq, Bool.not_eq_true', decide_eq_true_eq, decide_eq_false_iff_not,
    not_and]
  constructor
  · rintro ⟨⟨hnamed, hkind⟩, before, after, hchildren, hbefore⟩
    exact ⟨before, after, hchildren, hnamed, hkind, hbefore⟩
  · rintro ⟨before, after, hchildren, hnamed, hkind, hbefore⟩
    exact ⟨⟨hnamed, hkind⟩, before, after, hchildren, hbefore⟩

def numbered (n : Node) : List (Node × Nat) := n.children.zipIdx.filter (·.1.isNamed)

theorem map_fst_numbered (n : Node) : n.numbered.map Prod.fst = n.namedChildren := by
  have hfilter := List.filter_map (f := Prod.fst) (p := isNamed) (l := n.children.zipIdx)
  rw [List.zipIdx_map_fst] at hfilter
  exact hfilter.symm

theorem mem_numbered {n c : Node} {i : Nat} : (c, i) ∈ n.numbered ↔ n.NamedChild i c := by
  rw [numbered, List.mem_filter, List.mem_zipIdx_iff_getElem?, NamedChild]

theorem pairwise_numbered (n : Node) : n.numbered.Pairwise fun a b => a.2 < b.2 := by
  have hrange : (n.children.zipIdx.map Prod.snd).Pairwise (· < ·) := by
    rw [List.zipIdx_map_snd]
    exact List.pairwise_lt_range'
  exact (List.pairwise_map.1 hrange).filter _

end Syntax.Node

namespace Extraction

open Syntax Node

@[mk_iff]
inductive EntryBinds (source : String) (entry : Node) : Specifier → Prop
  | kept {name : Node} (hname : entry.field? "name" = some name)
      (halias : entry.field? "alias" = none) :
      EntryBinds source entry
        ⟨.named, Text.unquote (name.text source), some (Text.unquote (name.text source))⟩
  | renamed {name binding : Node} (hname : entry.field? "name" = some name)
      (halias : entry.field? "alias" = some binding) :
      EntryBinds source entry
        ⟨.named, binding.text source, some (Text.unquote (name.text source))⟩

@[mk_iff]
inductive PartBinds (source : String) (part : Node) : Position → Specifier → Prop
  | default (hpart : part.kind = "identifier") :
      PartBinds source part [] ⟨.default, part.text source, none⟩
  | whole {name : Node} (hpart : part.kind = "namespace_import")
      (hname : part.FirstNamed "identifier" name) :
      PartBinds source part [] ⟨.namespace, name.text source, none⟩
  | listed {k : Nat} {entry : Node} {s : Specifier} (hpart : part.kind = "named_imports")
      (hentry : part.NamedChild k entry) (hkind : entry.kind = "import_specifier")
      (hs : EntryBinds source entry s) :
      PartBinds source part [k] s

@[mk_iff]
inductive ClauseBinds (source : String) (clause : Node) : Position → Specifier → Prop
  | part {j : Nat} {part : Node} {p : Position} {s : Specifier}
      (hclause : clause.kind = "import_clause") (hpart : clause.NamedChild j part)
      (hs : PartBinds source part p s) :
      ClauseBinds source clause (j :: p) s
  | required {name : Node} (hclause : clause.kind = "import_require_clause")
      (hname : clause.FirstNamed "identifier" name) :
      ClauseBinds source clause [] ⟨.default, name.text source, none⟩

/-- The node at a position of an import statement brings in a name. -/
@[mk_iff]
inductive Binds (source : String) (statement : Node) : Position → Specifier → Prop
  | clause {i : Nat} {clause : Node} {p : Position} {s : Specifier}
      (hclause : statement.NamedChild i clause) (hs : ClauseBinds source clause p s) :
      Binds source statement (i :: p) s

/-- The node from which the module of an import statement is read. Where the statement has none of
its own, the clause that has one may stand anywhere, as long as it is the first. -/
inductive NamesSource (statement : Node) : Node → Prop
  | own {m : Node} (h : statement.field? "source" = some m) : NamesSource statement m
  | required {before after : List Node} {clause m : Node}
      (hnone : statement.field? "source" = none)
      (hchildren : statement.children = before ++ clause :: after) (hnamed : clause.isNamed)
      (hkind : clause.kind = "import_require_clause") (hsource : clause.field? "source" = some m)
      (hfirst : ∀ d ∈ before, d.isNamed → d.kind = "import_require_clause" →
        d.field? "source" = none) : NamesSource statement m

/-- The specifiers are those of a family that goes by position: one for each position, and in
document order. -/
def Enumerates (P : Position → Specifier → Prop) (specifiers : List Specifier) : Prop :=
  ∃ bound : List (Position × Specifier), bound.map Prod.snd = specifiers ∧
    bound.Pairwise (fun a b => a.1 < b.1) ∧ ∀ p s, (p, s) ∈ bound ↔ P p s

theorem Enumerates.congr {P Q : Position → Specifier → Prop} {specifiers : List Specifier}
    (h : Enumerates P specifiers) (hPQ : ∀ p s, P p s ↔ Q p s) : Enumerates Q specifiers := by
  obtain ⟨bound, hmap, horder, hmem⟩ := h
  exact ⟨bound, hmap, horder, fun p s => (hmem p s).trans (hPQ p s)⟩

theorem enumerates_nil {P : Position → Specifier → Prop} (h : ∀ p s, ¬P p s) :
    Enumerates P [] :=
  ⟨[], rfl, .nil, by simp [h]⟩

theorem enumerates_singleton (s : Specifier) : Enumerates (fun p t => p = [] ∧ t = s) [s] :=
  ⟨[([], s)], rfl, List.pairwise_singleton _ _, by simp⟩

theorem enumerates_toList (found : Option Specifier) :
    Enumerates (fun p s => p = [] ∧ found = some s) found.toList := by
  cases found with
  | none => exact enumerates_nil (by simp)
  | some s => exact (enumerates_singleton s).congr (by simp [eq_comm])

theorem enumerates_firstNamedOfKind? (make : Node → Specifier) (n : Node) (kind : String) :
    Enumerates (fun p s => ∃ c, n.FirstNamed kind c ∧ p = [] ∧ s = make c)
      ((n.firstNamedOfKind? kind).map make).toList := by
  refine (enumerates_toList _).congr ?_
  intro p s
  rw [Option.map_eq_some_iff]
  constructor
  · rintro ⟨hp, c, hc, rfl⟩
    exact ⟨c, firstNamedOfKind?_eq_some_iff.1 hc, hp, rfl⟩
  · rintro ⟨c, hc, hp, rfl⟩
    exact ⟨hp, c, firstNamedOfKind?_eq_some_iff.2 hc, rfl⟩

theorem enumerates_flatMap {P : Node → Position → Specifier → Prop} {f : Node → List Specifier}
    (h : ∀ c, Enumerates (P c) (f c)) (n : Node) :
    Enumerates (fun p s => ∃ i c q, n.NamedChild i c ∧ P c q s ∧ p = i :: q)
      (n.namedChildren.flatMap f) := by
  choose bound hmap horder hmem using h
  refine ⟨n.numbered.flatMap fun x => (bound x.1).map fun y => (x.2 :: y.1, y.2), ?_, ?_, ?_⟩
  · rw [← map_fst_numbered, List.flatMap_map, List.map_flatMap]
    simp only [List.map_map, ← hmap]
    rfl
  · rw [List.pairwise_flatMap]
    constructor
    · intro x _
      rw [List.pairwise_map]
      exact (horder x.1).imp List.cons_lt_cons_self.2
    -- Whatever hangs from a later sibling starts with a larger number.
    · refine n.pairwise_numbered.imp ?_
      intro x y hxy a ha b hb
      obtain ⟨a, -, rfl⟩ := List.mem_map.1 ha
      obtain ⟨b, -, rfl⟩ := List.mem_map.1 hb
      exact List.Lex.rel hxy
  · intro p s
    simp only [List.mem_flatMap, List.mem_map, Prod.exists, mem_numbered, Prod.mk.injEq, hmem]
    constructor
    · rintro ⟨c, i, hc, q, s', hq, rfl, rfl⟩
      exact ⟨i, c, q, hc, hq, rfl⟩
    · rintro ⟨i, c, q, hc, hq, rfl⟩
      exact ⟨c, i, hc, q, s, hq, rfl, rfl⟩

theorem namedSpecifier?_eq_some_iff {source : String} {n : Node} {s : Specifier} :
    namedSpecifier? source n = some s ↔ n.kind = "import_specifier" ∧ EntryBinds source n s := by
  rw [namedSpecifier?, Option.ite_none_right_eq_some, Option.map_eq_some_iff]
  cases halias : n.field? "alias" with
  | none => simp [entryBinds_iff, halias, eq_comm]
  | some binding => simp [entryBinds_iff, halias, eq_comm]

theorem enumerates_clauseSpecifiers (source : String) (part : Node) :
    Enumerates (PartBinds source part) (clauseSpecifiers source part) := by
  unfold clauseSpecifiers
  split
  case h_1 hkind =>
    refine (enumerates_singleton _).congr ?_
    simp [partBinds_iff, hkind, defaultSpecifier]
  case h_2 hkind =>
    refine (enumerates_firstNamedOfKind? _ _ _).congr ?_
    simp [partBinds_iff, hkind, namespaceSpecifier]
  case h_3 hkind =>
    rw [List.filterMap_eq_flatMap_toList]
    have hentries := enumerates_flatMap (fun c => enumerates_toList (namedSpecifier? source c)) part
    refine hentries.congr ?_
    simp [partBinds_iff, hkind, namedSpecifier?_eq_some_iff, and_assoc]
  case h_4 h₁ h₂ h₃ =>
    apply enumerates_nil
    rintro p s (hpart | ⟨hpart, _⟩ | ⟨hpart, _, _, _⟩)
    · exact h₁ hpart
    · exact h₂ hpart
    · exact h₃ hpart

theorem enumerates_statementSpecifiers (source : String) (clause : Node) :
    Enumerates (ClauseBinds source clause) (statementSpecifiers source clause) := by
  unfold statementSpecifiers
  split
  case h_1 hkind =>
    refine (enumerates_flatMap (enumerates_clauseSpecifiers source) clause).congr ?_
    simp [clauseBinds_iff, hkind]
  case h_2 hkind =>
    refine (enumerates_firstNamedOfKind? _ _ _).congr ?_
    simp [clauseBinds_iff, hkind, defaultSpecifier]
  case h_3 h₁ h₂ =>
    apply enumerates_nil
    rintro p s (⟨hclause, _, _⟩ | ⟨hclause, _⟩)
    · exact h₁ hclause
    · exact h₂ hclause

theorem enumerates_bindings (source : String) (statement : Node) :
    Enumerates (Binds source statement)
      (statement.namedChildren.flatMap (statementSpecifiers source)) := by
  refine (enumerates_flatMap (enumerates_statementSpecifiers source) statement).congr ?_
  simp [binds_iff]

theorem findSome?_requireClauses_eq_some_iff {statement m : Node} :
    (statement.namedChildren.filter (·.kind == "import_require_clause")).findSome?
        (·.field? "source") = some m ↔
      ∃ before clause after, statement.children = before ++ clause :: after ∧
        (clause.isNamed ∧ clause.kind = "import_require_clause" ∧
          clause.field? "source" = some m) ∧
        ∀ d ∈ before, d.isNamed → d.kind = "import_require_clause" → d.field? "source" = none := by
  -- The first hit among the children kept is the first among all once the test is in the search.
  rw [← List.head?_filterMap, namedChildren, List.filterMap_filter, List.filterMap_filter,
    List.head?_filterMap, List.findSome?_eq_some_iff]
  simp

theorem moduleNode?_eq_some_iff {statement m : Node} :
    moduleNode? statement = some m ↔ NamesSource statement m := by
  rw [moduleNode?, Option.or_eq_some_iff, findSome?_requireClauses_eq_some_iff]
  constructor
  · rintro (hown | ⟨hnone, before, clause, after, hchildren, ⟨hnamed, hkind, hm⟩, hfirst⟩)
    · exact .own hown
    · exact .required hnone hchildren hnamed hkind hm hfirst
  · rintro (hown | ⟨hnone, hchildren, hnamed, hkind, hm, hfirst⟩)
    · exact .inl hown
    · exact .inr ⟨hnone, _, _, _, hchildren, ⟨hnamed, hkind, hm⟩, hfirst⟩

/-- In a script an import statement that names a module is on record, with what the statement binds
and the module it names. -/
theorem imports_bindings {l : Language} (hl : l = .javascript ∨ l = .typescript) (source : String)
    {root statement : Node} (hroot : statement ∈ root.children)
    (himport : isImportStatement statement) (hmodule : NamesModule statement) :
    ∃ r, importOf? source statement = some r ∧ r ∈ imports l source root ∧
      Enumerates (Binds source statement) r.specifiers ∧
      ∃ m, NamesSource statement m ∧ r.source = Text.unquote (m.text source) := by
  have hscript : l.hasImports := by
    rcases hl with rfl | rfl <;> rfl
  obtain ⟨r, hr⟩ := Option.isSome_iff_exists.1 ((isSome_importOf? source statement).2 hmodule)
  obtain ⟨m, hm, hrecord⟩ := Option.map_eq_some_iff.1 hr
  refine ⟨r, hr, ?_, ?_, m, moduleNode?_eq_some_iff.1 hm, ?_⟩
  · rw [imports, if_pos hscript, importStatements_eq]
    exact List.mem_filterMap.2 ⟨statement, List.mem_filter.2 ⟨hroot, himport⟩, hr⟩
  · rw [← hrecord]
    exact enumerates_bindings source statement
  · rw [← hrecord]

namespace Mixed

def source : String := "import D, \x7b a, b as c \x7d from \"m\";"

abbrev node := Node.clean source

def statement : Node :=
  node true "import_statement" [] 0 33
    [node false "import" [] 0 6 [],
      node true "import_clause" [] 7 23
        [node true "identifier" [] 7 8 [],
          node false "," [] 8 9 [],
          node true "named_imports" [] 10 23
            [node true "import_specifier" [] 12 13
                [node true "identifier" ["name"] 12 13 []],
              node true "import_specifier" [] 15 21
                [node true "identifier" ["name"] 15 16 [],
                  node true "identifier" ["alias"] 20 21 []]]],
      node true "string" ["source"] 29 32 []]

def root : Node := node true "program" [] 0 33 [statement]

end Mixed

theorem imports_bindings_mixed :
    Mixed.statement ∈ Mixed.root.children ∧ isImportStatement Mixed.statement ∧
      NamesModule Mixed.statement ∧
      importOf? Mixed.source Mixed.statement =
        some ⟨"m", [⟨.default, "D", none⟩, ⟨.named, "a", some "a"⟩, ⟨.named, "c", some "b"⟩]⟩ ∧
      ∃ r, importOf? Mixed.source Mixed.statement = some r ∧
        r ∈ imports .typescript Mixed.source Mixed.root ∧
        Enumerates (Binds Mixed.source Mixed.statement) r.specifiers ∧
        ∃ m, NamesSource Mixed.statement m ∧ r.source = Text.unquote (m.text Mixed.source) :=
  ⟨List.mem_singleton_self _, by decide, by decide, by decide +kernel,
    imports_bindings (.inr rfl) Mixed.source (List.mem_singleton_self _) (by decide) (by decide)⟩

end Extraction

end CodeChunks
