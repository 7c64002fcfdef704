import CodeChunks.Proofs.Extraction.Topmost
import CodeChunks.Proofs.Syntax.Layout
import Mathlib.Data.List.Forall2

namespace CodeChunks

def Event.isImportReport : Event → Bool
  | .importWithoutSource _ => true
  | _ => false

namespace Extraction

open Syntax

def isImportStatement (n : Node) : Bool := n.isNamed && n.kind == "import_statement"

theorem importStatements_eq (root : Node) :
    importStatements root = root.children.filter isImportStatement := by
  rw [importStatements, Node.namedChildren, List.filter_filter]
  apply List.filter_congr
  intro c _
  exact Bool.and_comm _ _

def NamesModule (statement : Node) : Prop :=
  (statement.field? "source").isSome ∨
    ∃ clause ∈ statement.children,
      clause.isNamed ∧ clause.kind = "import_require_clause" ∧ (clause.field? "source").isSome

instance (statement : Node) : Decidable (NamesModule statement) :=
  inferInstanceAs (Decidable (_ ∨ _))

theorem isSome_importOf? (source : String) (statement : Node) :
    (importOf? source statement).isSome ↔ NamesModule statement := by
  simp only [importOf?, moduleNode?, Option.isSome_map, Option.isSome_or, Bool.or_eq_true,
    NamesModule, List.findSome?_isSome_iff, List.mem_filter, Node.namedChildren, beq_iff_eq,
    and_assoc]

theorem forall₂_importOf? (source : String) (statements : List Node) :
    List.Forall₂ (fun c record => importOf? source c = some record)
      (statements.filter (NamesModule ·)) (statements.filterMap (importOf? source)) := by
  induction statements with
  | nil => exact .nil
  | cons c cs ih =>
    cases hc : importOf? source c with
    | none =>
      have hnames : ¬NamesModule c := by simp [← isSome_importOf? source, hc]
      simpa [hc, hnames] using ih
    | some record =>
      have hnames : NamesModule c := by simp [← isSome_importOf? source, hc]
      simpa [hc, hnames] using ih

theorem importEvents_eq {l : Language} (hl : l.hasImports) (source : String) (root : Node) :
    importEvents l source root =
      ((root.children.filter isImportStatement).filter (¬NamesModule ·)).map
        fun c => .importWithoutSource c.line := by
  rw [importEvents, if_pos hl, importStatements_eq]
  congr 1
  apply List.filter_congr
  intro c _
  rw [Bool.eq_iff_iff, decide_eq_true_iff, ← isSome_importOf? source]
  simp

theorem filter_isImportReport_events {l : Language} (hl : l.hasImports) (withDetails : Bool)
    (source filePath : String) (root : Node) :
    (extract l withDetails source filePath root).events.filter Event.isImportReport =
      ((root.children.filter isImportStatement).filter (¬NamesModule ·)).map
        fun c => .importWithoutSource c.line := by
  have hnaming : ∀ e ∈ (chunkRoots l [⟨root, []⟩]).filterMap (namingEvent? l source filePath),
      ¬e.isImportReport := by
    intro e he
    obtain ⟨r, -, hr⟩ := List.mem_filterMap.1 he
    simp only [namingEvent?, Option.ite_none_right_eq_some, Option.some.injEq] at hr
    simp [← hr.2, Event.isImportReport]
  have himports : ∀ e ∈ importEvents l source root, e.isImportReport := by
    intro e he
    rw [importEvents_eq hl] at he
    obtain ⟨c, -, rfl⟩ := List.mem_map.1 he
    rfl
  rw [extract, List.filter_append, List.filter_eq_nil_iff.2 hnaming,
    List.filter_eq_self.2 himports, List.nil_append, importEvents_eq hl]

theorem chunkRoots_eq_flatMap (l : Language) (sites : List Site) :
    chunkRoots l sites = sites.flatMap fun s => chunkRoots l [s] := by
  induction sites with
  | nil => simp [chunkRoots]
  | cons s sites ih =>
    rw [← List.singleton_append, chunkRoots_append, ih]
    rfl

def chunksAt (l : Language) (withDetails : Bool) (source : String) (s : Site) : List RawChunk :=
  (chunkRoots l [s]).map fun r => rawChunk l withDetails source r.1

theorem extract_raw_eq_flatMap {l : Language} {root : Node} (hroot : l.classify root.kind = none)
    (withDetails : Bool) (source filePath : String) :
    (extract l withDetails source filePath root).raw =
      root.sites.flatMap (chunksAt l withDetails source) := by
  have hroots : chunkRoots l [⟨root, []⟩] = root.sites.flatMap fun s => chunkRoots l [s] := by
    rw [chunkRoots_cons_of_not_chunkable l hroot, List.append_nil, chunkRoots_eq_flatMap]
  simp only [extract, hroots, List.map_flatMap]
  rfl

theorem classify_import_statement {l : Language} (hl : l.hasImports) :
    l.classify "import_statement" = some .importStatement := by
  cases l with
  | javascript => decide
  | typescript => decide
  | python => cases hl
  | java => cases hl

theorem describe_import_statement {l : Language} (hl : l.hasImports) (source : String) {n : Node}
    (hn : n.kind = "import_statement") :
    describe l source n = ⟨.import, some "import", none⟩ := by
  rw [describe, hn, classify_import_statement hl]
  rfl

theorem chunksAt_import_statement {l : Language} (hl : l.hasImports) (withDetails : Bool)
    (source : String) {s : Site} (hs : isImportStatement s.node) :
    ∃ r, chunksAt l withDetails source s = [r] ∧ r.type = .import ∧ r.name = "import" ∧
      r.start = s.node.start ∧ r.stop = s.node.stop := by
  have hkind : s.node.kind = "import_statement" := by
    simp only [isImportStatement, Bool.and_eq_true, beq_iff_eq] at hs
    exact hs.2
  have hclassify : l.classify s.node.kind = some .importStatement := by
    rw [hkind, classify_import_statement hl]
  refine ⟨rawChunk l withDetails source s, ?_, ?_, ?_, rfl, rfl⟩
  · rw [chunksAt, chunkRoots_cons_of_chunkable l hclassify]
    simp [chunkRoots]
  · simp only [rawChunk, describe_import_statement hl source hkind]
  · simp only [rawChunk, describe_import_statement hl source hkind, Option.getD_some]

/-- Rows of children with the same import statements in the same order. The other children may be
taken out or put in, or, by both, replaced with all that is below them. -/
inductive OthersReplaced : List Node → List Node → Prop
  | nil : OthersReplaced [] []
  | keep (c : Node) {cs ds : List Node} : OthersReplaced cs ds → OthersReplaced (c :: cs) (c :: ds)
  | takeOut {c : Node} {cs ds : List Node} : ¬isImportStatement c →
      OthersReplaced cs ds → OthersReplaced (c :: cs) ds
  | putIn {d : Node} {cs ds : List Node} : ¬isImportStatement d →
      OthersReplaced cs ds → OthersReplaced cs (d :: ds)

theorem OthersReplaced.filter_eq {cs ds : List Node} (h : OthersReplaced cs ds) :
    cs.filter isImportStatement = ds.filter isImportStatement := by
  induction h with
  | nil => rfl
  | keep c _ ih => simp only [List.filter_cons, ih]
  | takeOut hc _ ih => rw [List.filter_cons_of_neg hc, ih]
  | putIn hd _ ih => rw [List.filter_cons_of_neg hd, ih]

structure ImportsAgree (l : Language) (withDetails : Bool) (source filePath : String)
    (root : Node) : Prop where
  raw : (extract l withDetails source filePath root).raw =
    root.sites.flatMap (chunksAt l withDetails source)
  chunk : ∀ s ∈ root.sites, isImportStatement s.node →
    ∃ r, chunksAt l withDetails source s = [r] ∧ r.type = .import ∧ r.name = "import" ∧
      r.start = s.node.start ∧ r.stop = s.node.stop
  records : List.Forall₂ (fun c record => importOf? source c = some record)
    ((root.children.filter isImportStatement).filter (NamesModule ·))
    (extract l withDetails source filePath root).imports
  reports :
    ((extract l withDetails source filePath root).events.filter Event.isImportReport).map
        (fun e => (e.level, e.message)) =
      ((root.children.filter isImportStatement).filter (¬NamesModule ·)).map fun c =>
        (.debug, "Import without a module source at line " ++ toString c.line)
  count : (extract l withDetails source filePath root).imports.length +
      ((extract l withDetails source filePath root).events.filter Event.isImportReport).length =
    root.children.countP isImportStatement
  unmoved : ∀ children, OthersReplaced root.children children →
    (extract l withDetails source filePath (.mk root.label children)).imports =
      (extract l withDetails source filePath root).imports

theorem extract_imports {l : Language} (hl : l.hasImports) (withDetails : Bool)
    (source filePath : String) (root : Node) :
    (extract l withDetails source filePath root).imports =
      (root.children.filter isImportStatement).filterMap (importOf? source) := by
  rw [← importStatements_eq]
  exact if_pos hl

theorem length_imports_add_length_reports {l : Language} (hl : l.hasImports) (withDetails : Bool)
    (source filePath : String) (root : Node) :
    (extract l withDetails source filePath root).imports.length +
        ((extract l withDetails source filePath root).events.filter Event.isImportReport).length =
      root.children.countP isImportStatement := by
  have hrecords := (forall₂_importOf? source (root.children.filter isImportStatement)).length_eq
  have hsplit := List.length_eq_countP_add_countP (fun c => decide (NamesModule c))
    (l := root.children.filter isImportStatement)
  rw [extract_imports hl, ← hrecords, filter_isImportReport_events hl, List.length_map,
    List.countP_eq_length_filter, hsplit, List.countP_eq_length_filter,
    List.countP_eq_length_filter]
  simp only [Bool.not_eq_true, decide_eq_false_iff_not]

/-- In a script each import statement below the root becomes one chunk, and one record or one
report. -/
theorem extract_imports_agree (policy : Policy)
    (hscript : policy.language = .javascript ∨ policy.language = .typescript)
    (withDetails : Bool) (source filePath : String) {root : Node}
    (hroot : policy.language.classify root.kind = none) :
    ImportsAgree policy.language withDetails source filePath root := by
  have hl : policy.language.hasImports := by
    rcases hscript with h | h <;> rw [h] <;> rfl
  constructor
  case raw => exact extract_raw_eq_flatMap hroot withDetails source filePath
  case chunk =>
    intro s _ hs
    exact chunksAt_import_statement hl withDetails source hs
  case records =>
    rw [extract_imports hl]
    exact forall₂_importOf? source _
  case reports =>
    rw [filter_isImportReport_events hl, List.map_map]
    rfl
  case count => exact length_imports_add_length_reports hl withDetails source filePath root
  case unmoved =>
    intro children h
    rw [extract_imports hl, extract_imports hl, h.filter_eq]
    rfl

namespace Requiring

def source : String :=
  "import fs = require(\"fs\");\nasync function f(x) \x7b\x7d\nimport \x7b\x7d\n"

abbrev node := Node.clean source

def tree : Node :=
  node true "program" [] 0 60
    [node true "import_statement" [] 0 26
      [node false "import" [] 0 6 [],
        node true "import_require_clause" [] 7 25
          [node true "identifier" [] 7 9 [], node true "string" ["source"] 20 24 []]],
      node true "function_declaration" [] 27 49
        [node false "async" [] 27 32 [],
          node true "identifier" ["name"] 42 43 [],
          node true "formal_parameters" ["parameters"] 43 46 [node true "identifier" [] 44 45 []],
          node true "statement_block" ["body"] 47 49 []],
      node true "import_statement" [] 50 59 [node true "named_imports" [] 57 59 []]]

end Requiring

theorem extract_imports_agree_requiring :
    (Policy.ofLanguage .typescript).language = .typescript ∧
      Language.typescript.classify Requiring.tree.kind = none ∧
      ImportsAgree .typescript true Requiring.source "m.ts" Requiring.tree :=
  ⟨rfl, by decide, extract_imports_agree (.ofLanguage .typescript) (.inr rfl) true
    Requiring.source "m.ts" (by decide)⟩

end Extraction

end CodeChunks
