import CodeChunks.Extraction.Traversal
import CodeChunks.Proofs.Syntax.Siblings
import Mathlib.Data.List.Infix

/-!
The comments that document a definition. They are the longest run of comments that ends directly
before it, in which each leaves no row free below it and none stands behind code on the row on which
the code ends.

Only the sibling just before a comment is asked whether it is code. So of several comments behind
code on one row the first is left out and the others are taken, and this is the only way in which a
comment that shares its row with code before it gets into the documentation.
-/

namespace CodeChunks.Extraction.Script

open Syntax

/-- The comment `c` belongs to `next`, which follows it: no row is free between them, and `c` does
not directly follow code that ends on its row. -/
structure Attached (earlier : List Node) (c next : Node) : Prop where
  comment : isComment c
  near : next.startRow ≤ c.stopRow + 1
  apart : ∀ p, earlier.getLast? = some p → isComment p ∨ p.stopRow ≠ c.startRow

/-- Each comment of the block belongs to the next one, and the last to `root`; the block stands
directly behind `earlier`. -/
def IsBlock (earlier block : List Node) (root : Node) : Prop :=
  ∀ pre c post, block = pre ++ c :: post → Attached (earlier ++ pre) c (post.headD root)

/-- No run of siblings that ends where the block ends is a longer block. -/
structure IsLongestBlock (earlier block : List Node) (root : Node) : Prop where
  isBlock : IsBlock earlier block root
  length_le : ∀ earlier' block', earlier' ++ block' = earlier ++ block →
    IsBlock earlier' block' root → block'.length ≤ block.length

variable {earlier block : List Node} {c d root : Node}

theorem isBlock_nil : IsBlock earlier [] root := by
  intro pre c post h
  simp at h

theorem IsBlock.cons (hc : Attached earlier c (block.headD root))
    (h : IsBlock (earlier ++ [c]) block root) :
    IsBlock earlier (c :: block) root := by
  intro pre d post heq
  cases pre with
  | nil =>
    cases heq
    simpa using hc
  | cons e pre =>
    cases heq
    simpa using h pre d post rfl

@[simp] theorem headD_concat (ns : List Node) : (ns ++ [c]).headD root = ns.headD c := by
  cases ns <;> rfl

theorem isBlock_concat :
    IsBlock earlier (block ++ [c]) root ↔
      IsBlock earlier block c ∧ Attached (earlier ++ block) c root := by
  constructor
  · intro h
    refine ⟨fun pre d post heq => ?_, h block c [] rfl⟩
    simpa using h pre d (post ++ [c]) (by simp [heq])
  · rintro ⟨h, hc⟩ pre d post heq
    rcases List.eq_nil_or_concat' post with rfl | ⟨post, e, rfl⟩
    · obtain ⟨rfl, rfl⟩ := List.append_singleton_inj.1 heq
      exact hc
    · rw [← List.cons_append, ← List.append_assoc] at heq
      obtain ⟨rfl, rfl⟩ := List.append_singleton_inj.1 heq
      simpa using h pre d post rfl

theorem IsBlock.isComment_of_mem (h : IsBlock earlier block root) (hc : c ∈ block) :
    isComment c := by
  obtain ⟨pre, post, heq⟩ := List.append_of_mem hc
  exact (h pre c post heq).comment

theorem attached_iff (before : List Node) :
    (isComment c && root.startRow ≤ c.stopRow + 1 && !trailsCode c before) ↔
      Attached before.reverse c root := by
  have hapart : trailsCode c before = false ↔
      ∀ p, before.reverse.getLast? = some p →
        isComment p ∨ p.stopRow ≠ c.startRow := by
    rw [trailsCode, List.getLast?_reverse]
    cases before.head? with
    | none => simp
    | some p => cases hp : isComment p <;> simp [hp]
  simp only [Bool.and_eq_true, Bool.not_eq_true', decide_eq_true_eq, hapart]
  exact ⟨fun ⟨⟨h₁, h₂⟩, h₃⟩ => ⟨h₁, h₂, h₃⟩, fun ⟨h₁, h₂, h₃⟩ => ⟨⟨h₁, h₂⟩, h₃⟩⟩

theorem commentRun_cons_of_attached {before : List Node}
    (h : Attached before.reverse c root) :
    commentRun (root.startRow) (c :: before) =
      c :: commentRun (c.startRow) before := by
  rw [commentRun, if_pos ((attached_iff before).2 h)]

theorem commentRun_cons_of_not_attached {before : List Node}
    (h : ¬Attached before.reverse c root) :
    commentRun (root.startRow) (c :: before) = [] := by
  rw [commentRun, if_neg (mt (attached_iff before).1 h)]

theorem isBlock_commentRun (root : Node) (before : List Node) :
    ∃ earlier, before = commentRun (root.startRow) before ++ earlier ∧
      IsBlock earlier.reverse (commentRun (root.startRow) before).reverse
        root := by
  -- Each comment found takes the place of `root` for the siblings before it.
  induction before generalizing root with
  | nil => exact ⟨[], rfl, isBlock_nil⟩
  | cons c before ih =>
    by_cases hc : Attached before.reverse c root
    · obtain ⟨earlier, hbefore, hblock⟩ := ih c
      rw [commentRun_cons_of_attached hc]
      refine ⟨earlier, congrArg (c :: ·) hbefore, ?_⟩
      rw [List.reverse_cons, isBlock_concat, ← List.reverse_append, ← hbefore]
      exact ⟨hblock, hc⟩
    · rw [commentRun_cons_of_not_attached hc]
      exact ⟨c :: before, rfl, isBlock_nil⟩

theorem length_le_commentRun {run before : List Node}
    (h : IsBlock before.reverse run.reverse root) :
    run.length ≤ (commentRun (root.startRow) (run ++ before)).length := by
  induction run generalizing root with
  | nil => exact Nat.zero_le _
  | cons c run ih =>
    rw [List.reverse_cons, isBlock_concat, ← List.reverse_append] at h
    rw [List.cons_append, commentRun_cons_of_attached h.2]
    exact Nat.succ_le_succ (ih h.1)

theorem isLongestBlock_leadingComments (site : Site) :
    ∃ earlier, site.before.reverse = earlier ++ leadingComments site ∧
      IsLongestBlock earlier (leadingComments site) site.node := by
  obtain ⟨earlier, hbefore, hblock⟩ := isBlock_commentRun site.node site.before
  have hsplit : site.before.reverse = earlier.reverse ++ leadingComments site := by
    rw [leadingComments, ← List.reverse_append, ← hbefore]
  refine ⟨earlier.reverse, hsplit, hblock, fun earlier' block' heq hblock' => ?_⟩
  have hbefore' : site.before = block'.reverse ++ earlier'.reverse := by
    rw [← List.reverse_append, heq, ← hsplit, List.reverse_reverse]
  have hlength : block'.reverse.length ≤
      (commentRun (site.node.startRow) site.before).length := by
    rw [hbefore']
    exact length_le_commentRun (by simpa using hblock')
  simpa [leadingComments] using hlength

/-- The documentation of a node consists of the texts of the longest block of comments before it, a
line break between each and the next; there is none when the block is empty. -/
theorem documentation_longest_block {tree : Node} {p : Position} {site : Site} (source : String)
    (hsite : Site.at? ⟨tree, []⟩ p = some site) :
    ∃ earlier block, tree.siblingsBefore p = earlier ++ block ∧
      IsLongestBlock earlier block site.node ∧
      (documentation site source = none ↔ block = []) ∧
      (block ≠ [] → documentation site source =
        some ("\n".intercalate (block.map (·.text source)))) := by
  obtain ⟨earlier, hsplit, hblock⟩ := isLongestBlock_leadingComments site
  rw [Site.reverse_before_of_at? hsite] at hsplit
  refine ⟨earlier, leadingComments site, hsplit, hblock, ?_⟩
  rw [documentation]
  cases leadingComments site with
  | nil => simp
  | cons c block => simp

namespace Remarks

def oneLine : String := "foo(); /* a */ // b\nfunction h() \x7b\x7d\n"

def twoLines : String := "foo(); /* a */\n// b\nfunction h() \x7b\x7d\n"

section Tree

variable (s : String)

abbrev node := Node.clean s

def call : Node :=
  node s true "expression_statement" [] 0 6
    [node s true "call_expression" [] 0 5
      [node s true "identifier" ["function"] 0 3 [],
        node s true "arguments" ["arguments"] 3 5
          [node s false "(" [] 3 4 [], node s false ")" [] 4 5 []]],
      node s false ";" [] 5 6 []]

def first : Node := node s true "comment" [] 7 14 []

def second : Node := node s true "comment" [] 15 19 []

def function : Node :=
  node s true "function_declaration" [] 20 35
    [node s false "function" [] 20 28 [],
      node s true "identifier" ["name"] 29 30 [],
      node s true "formal_parameters" ["parameters"] 30 32
        [node s false "(" [] 30 31 [], node s false ")" [] 31 32 []],
      node s true "statement_block" ["body"] 33 35
        [node s false "\x7b" [] 33 34 [], node s false "\x7d" [] 34 35 []]]

def tree : Node := node s true "program" [] 0 36 [call s, first s, second s, function s]

def site : Site := ⟨function s, [second s, first s, call s]⟩

end Tree

theorem tree_wellFormed {s : String} (h : ∀ i ≤ 36, Text.IsBoundary s i) :
    (tree s).WellFormed s := by
  simp [tree, call, first, second, function, Node.clean, Node.wellFormed_mk_iff,
    Node.pointed_iff, Node.start, Node.stop, h]

theorem oneLine_wellFormed : (tree oneLine).WellFormed oneLine :=
  tree_wellFormed (by decide +kernel)

theorem twoLines_wellFormed : (tree twoLines).WellFormed twoLines :=
  tree_wellFormed (by decide +kernel)

theorem leadingComments_oneLine : leadingComments (site oneLine) = [second oneLine] := by rfl

theorem leadingComments_twoLines : leadingComments (site twoLines) = [second twoLines] := by rfl

end Remarks

open Remarks

theorem documentation_longest_block_one_line :
    Site.at? ⟨tree oneLine, []⟩ [3] = some (site oneLine) ∧
      (∃ earlier block, (tree oneLine).siblingsBefore [3] = earlier ++ block ∧
        IsLongestBlock earlier block (site oneLine).node ∧
        (documentation (site oneLine) oneLine = none ↔ block = []) ∧
        (block ≠ [] → documentation (site oneLine) oneLine =
          some ("\n".intercalate (block.map (·.text oneLine))))) ∧
      documentation (site oneLine) oneLine = some "// b" :=
  ⟨rfl, documentation_longest_block oneLine rfl, by decide +kernel⟩

/-- No comment of the block starts on a row on which code before it ends. -/
def OnOwnRows (earlier block : List Node) : Prop :=
  ∀ pre c post, block = pre ++ c :: post →
    ∀ q ∈ earlier ++ pre, isComment q = false → q.stopRow ≠ c.startRow

def StartsBehindTrailing (earlier block : List Node) : Prop :=
  ∃ before q d b rest, earlier = before ++ [q, d] ∧ block = b :: rest ∧
    isComment q = false ∧ isComment d ∧ q.stopRow = b.startRow

theorem IsLongestBlock.exists_code_before (h : IsLongestBlock (earlier ++ [d]) block root)
    (hd : isComment d) (hnear : (block.headD root).startRow ≤ d.stopRow + 1) :
    ∃ before q, earlier = before ++ [q] ∧ isComment q = false ∧
      q.stopRow = d.startRow := by
  by_contra hnone
  -- Otherwise the comment would have been taken into the block.
  have hattached : Attached earlier d (block.headD root) := by
    refine ⟨hd, hnear, fun q hq => ?_⟩
    obtain ⟨before, rfl⟩ := List.getLast?_eq_some_iff.1 hq
    by_contra hcode
    rw [not_or, Bool.not_eq_true, not_not] at hcode
    exact hnone ⟨before, q, rfl, hcode⟩
  have hlength := h.length_le earlier (d :: block) (by simp) (.cons hattached h.isBlock)
  rw [List.length_cons] at hlength
  omega

theorem IsLongestBlock.startsBehindTrailing {b p : Node} {rest : List Node}
    (h : IsLongestBlock earlier (b :: rest) root)
    (hrows : RowOrdered (earlier ++ b :: rest)) (hp : p ∈ earlier)
    (hcode : isComment p = false) (hrow : p.stopRow = b.startRow) :
    StartsBehindTrailing earlier (b :: rest) := by
  obtain rfl | ⟨before, d, rfl⟩ := List.eq_nil_or_concat' earlier
  · cases hp
  have hpd := hrows.of_append.1.stopRow_le_last hp
  have hdb : d.stopRow ≤ b.startRow := hrows.stopRow_le_startRow (by simp) (by simp)
  -- Code right before the block would end on its first row as well.
  have hd : isComment d :=
    ((h.isBlock [] b rest rfl).apart d (by simp)).resolve_right (not_not.2 (by omega))
  obtain ⟨before, q, rfl, hqcode, hqd⟩ :=
    h.exists_code_before hd (show b.startRow ≤ d.stopRow + 1 by omega)
  have hpq : p.stopRow ≤ q.stopRow := by
    refine hrows.of_append.1.of_append.1.stopRow_le_last ?_
    refine (List.mem_append.1 hp).resolve_right fun hpd => ?_
    rw [List.mem_singleton.1 hpd, hd] at hcode
    cases hcode
  have hqb : q.stopRow ≤ b.startRow := hrows.stopRow_le_startRow (by simp) (by simp)
  exact ⟨before, q, d, b, rest, by simp, rfl, hqcode, hd, by omega⟩

theorem IsLongestBlock.onOwnRows_iff (h : IsLongestBlock earlier block root)
    (hrows : RowOrdered (earlier ++ block)) :
    OnOwnRows earlier block ↔ ¬StartsBehindTrailing earlier block := by
  constructor
  · rintro hown ⟨before, q, d, b, rest, rfl, rfl, hcode, -, hrow⟩
    exact hown [] b rest rfl q (by simp) hcode hrow
  · intro hstart pre c post heq q hq hcode hrow
    -- Comments are no code, so the code stands before the block and ends on its first row.
    have hq : q ∈ earlier := by
      refine (List.mem_append.1 hq).resolve_right fun hq => ?_
      rw [h.isBlock.isComment_of_mem (by simp [heq, hq])] at hcode
      cases hcode
    obtain ⟨b, rest, rfl⟩ := List.exists_cons_of_ne_nil (show block ≠ [] by simp [heq])
    have hqb : q.stopRow ≤ b.startRow := hrows.stopRow_le_startRow hq (by simp)
    have hbc : b.startRow ≤ c.startRow :=
      hrows.of_append.2.startRow_head_le (by simp [heq])
    exact hstart (h.startsBehindTrailing hrows hq hcode (by omega))

/-- Comments on a row on which code before them ends stay out of the documentation, unless it takes
up behind a comment that follows the code on that row. -/
theorem leadingComments_onOwnRows_iff {tree : Node} {source : String}
    (hwf : tree.WellFormed source) {p : Position} {site : Site}
    (hsite : Site.at? ⟨tree, []⟩ p = some site) :
    ∃ earlier, tree.siblingsBefore p = earlier ++ leadingComments site ∧
      (OnOwnRows earlier (leadingComments site) ↔
        ¬StartsBehindTrailing earlier (leadingComments site)) := by
  obtain ⟨earlier, hsplit, hblock⟩ := isLongestBlock_leadingComments site
  rw [Site.reverse_before_of_at? hsite] at hsplit
  exact ⟨earlier, hsplit, hblock.onOwnRows_iff (hsplit ▸ hwf.rowOrdered_siblingsBefore p)⟩

theorem leadingComments_onOwnRows_iff_two_lines :
    (tree twoLines).WellFormed twoLines ∧
      Site.at? ⟨tree twoLines, []⟩ [3] = some (site twoLines) ∧
      (tree twoLines).siblingsBefore [3] =
        [call twoLines, first twoLines] ++ leadingComments (site twoLines) ∧
      OnOwnRows [call twoLines, first twoLines] (leadingComments (site twoLines)) := by
  have hsite : Site.at? ⟨tree twoLines, []⟩ [3] = some (site twoLines) := rfl
  obtain ⟨earlier, hsplit, hiff⟩ := leadingComments_onOwnRows_iff twoLines_wellFormed hsite
  have hearlier : [call twoLines, first twoLines] = earlier := by
    rw [leadingComments_twoLines] at hsplit
    exact List.append_left_injective _ hsplit
  rw [← hearlier] at hsplit hiff
  refine ⟨twoLines_wellFormed, hsite, hsplit, hiff.2 ?_⟩
  rw [leadingComments_twoLines]
  rintro ⟨before, q, d, b, rest, hbefore, hblock, -, -, hrow⟩
  rw [← List.nil_append [call twoLines, first twoLines]] at hbefore
  cases (List.append_inj' hbefore rfl).2
  cases hblock
  exact absurd hrow (by decide +kernel)

/-- Of two comments behind code on its line the second gets into the documentation of the function
on the next line. -/
theorem not_onOwnRows_one_line :
    (tree oneLine).WellFormed oneLine ∧
      Site.at? ⟨tree oneLine, []⟩ [3] = some (site oneLine) ∧
      (tree oneLine).siblingsBefore [3] =
        [call oneLine, first oneLine] ++ leadingComments (site oneLine) ∧
      ¬OnOwnRows [call oneLine, first oneLine] (leadingComments (site oneLine)) ∧
      (extract .javascript true oneLine "a.js" (tree oneLine)).raw.map
        (fun c => (c.name, c.details.bind (·.documentation))) = [("h", some "// b")] := by
  refine ⟨oneLine_wellFormed, rfl, by rw [leadingComments_oneLine]; rfl, ?_, by decide +kernel⟩
  rw [leadingComments_oneLine]
  intro hown
  exact hown [] (second oneLine) [] rfl (call oneLine) (by simp) (by decide) (by decide +kernel)

end CodeChunks.Extraction.Script
