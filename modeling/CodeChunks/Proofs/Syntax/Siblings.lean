import CodeChunks.Proofs.Syntax.Layout
import CodeChunks.Proofs.Syntax.Position

namespace CodeChunks.Syntax

theorem getElem?_sitesFrom (before ns : List Node) (i : Nat) :
    (sitesFrom before ns)[i]? = (ns[i]?).map (⟨·, (ns.take i).reverse ++ before⟩) := by
  induction ns generalizing before i with
  | nil => simp [sitesFrom]
  | cons n ns ih =>
    cases i with
    | zero => simp [sitesFrom]
    | succ i => simp [sitesFrom, ih]

theorem Node.getElem?_sites (n : Node) (i : Nat) :
    n.sites[i]? = (n.children[i]?).map (⟨·, (n.children.take i).reverse⟩) := by
  simp [Node.sites, getElem?_sitesFrom]

def Node.siblingsBefore (n : Node) : Position → List Node
  | [] => []
  | [i] => n.children.take i
  | i :: j :: p => (n.children[i]?).elim [] (·.siblingsBefore (j :: p))

theorem Site.reverse_before_of_at?_cons {s t : Site} {i : Nat} {p : Position}
    (h : s.at? (i :: p) = some t) : t.before.reverse = s.node.siblingsBefore (i :: p) := by
  induction p generalizing s i with
  | nil =>
    rw [Site.at?_cons, Node.getElem?_sites] at h
    obtain ⟨u, hu, ht⟩ := Option.bind_eq_some_iff.1 h
    obtain ⟨c, -, rfl⟩ := Option.map_eq_some_iff.1 hu
    cases ht
    simp [Node.siblingsBefore]
  | cons j p ih =>
    rw [Site.at?_cons, Node.getElem?_sites] at h
    obtain ⟨u, hu, ht⟩ := Option.bind_eq_some_iff.1 h
    obtain ⟨c, hc, rfl⟩ := Option.map_eq_some_iff.1 hu
    rw [ih ht, Node.siblingsBefore, hc]
    rfl

theorem Site.reverse_before_of_at? {tree : Node} {t : Site} {p : Position}
    (h : Site.at? ⟨tree, []⟩ p = some t) : t.before.reverse = tree.siblingsBefore p := by
  cases p with
  | nil =>
    cases h
    rfl
  | cons i p => exact Site.reverse_before_of_at?_cons h

/-- No node ends on a row above the one it starts on, or on a row below the start of the next. -/
structure RowOrdered (ns : List Node) : Prop where
  start_le_stop : ∀ n ∈ ns, n.startRow ≤ n.stopRow
  stop_le_start : ns.Pairwise fun a b => a.stopRow ≤ b.startRow

namespace RowOrdered

variable {ms ns : List Node} {m n : Node}

theorem of_sublist (h : RowOrdered ns) (hms : ms.Sublist ns) : RowOrdered ms where
  start_le_stop := fun n hn => h.start_le_stop n (hms.subset hn)
  stop_le_start := h.stop_le_start.sublist hms

theorem of_append (h : RowOrdered (ms ++ ns)) :
    RowOrdered ms ∧ RowOrdered ns :=
  ⟨h.of_sublist (List.sublist_append_left ms ns), h.of_sublist (List.sublist_append_right ms ns)⟩

theorem stopRow_le_startRow (h : RowOrdered (ms ++ ns)) (hm : m ∈ ms) (hn : n ∈ ns) :
    m.stopRow ≤ n.startRow :=
  (List.pairwise_append.1 h.stop_le_start).2.2 m hm n hn

theorem startRow_head_le (h : RowOrdered (m :: ns)) (hn : n ∈ m :: ns) :
    m.startRow ≤ n.startRow := by
  rcases List.mem_cons.1 hn with rfl | hn
  · exact Nat.le_refl _
  · have hm := h.start_le_stop m (by simp)
    exact Nat.le_trans hm ((List.pairwise_cons.1 h.stop_le_start).1 n hn)

theorem stopRow_le_last (h : RowOrdered (ms ++ [n])) (hm : m ∈ ms ++ [n]) :
    m.stopRow ≤ n.stopRow := by
  rcases List.mem_append.1 hm with hm | hm
  · have hn := h.start_le_stop n (by simp)
    exact Nat.le_trans (h.stopRow_le_startRow hm (List.mem_singleton_self n)) hn
  · exact Nat.le_of_eq (by rw [List.mem_singleton.1 hm])

end RowOrdered

variable {source : String}

theorem Node.WellFormed.rowOrdered_children {n : Node} (h : n.WellFormed source) :
    RowOrdered n.children where
  start_le_stop := by
    intro c hc
    have hwf := h.of_mem_children hc
    rw [hwf.pointed.startRow_eq, hwf.pointed.stopRow_eq]
    exact Text.row_mono source hwf.start_le
  stop_le_start := by
    refine h.pairwise_children.imp_of_mem fun {a b} ha hb hab => ?_
    rw [(h.of_mem_children ha).pointed.stopRow_eq, (h.of_mem_children hb).pointed.startRow_eq]
    exact Text.row_mono source hab

theorem Node.WellFormed.rowOrdered_siblingsBefore {n : Node} (h : n.WellFormed source)
    (p : Position) : RowOrdered (n.siblingsBefore p) := by
  fun_induction Node.siblingsBefore n p with
  | case1 => exact ⟨by simp, .nil⟩
  | case2 n i => exact h.rowOrdered_children.of_sublist (List.take_sublist i n.children)
  | case3 n i j p ih =>
    cases hc : n.children[i]? with
    | none => exact ⟨by simp, .nil⟩
    | some c => exact ih c (h.of_mem_children (List.mem_of_getElem? hc))

end CodeChunks.Syntax
