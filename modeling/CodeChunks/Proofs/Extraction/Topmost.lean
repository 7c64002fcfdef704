import CodeChunks.Extraction.Traversal
import CodeChunks.Proofs.Syntax.Position
import Mathlib.Data.List.Infix

namespace CodeChunks.Extraction

open Syntax

variable (l : Language)

def kindAt? (n : Node) (p : Position) : Option Kind := (n.at? p).bind fun m => l.classify m.kind

@[simp] theorem kindAt?_nil (n : Node) : kindAt? l n [] = l.classify n.kind := rfl

theorem kindAt?_cons (n : Node) (i : Nat) (p : Position) :
    kindAt? l n (i :: p) = (n.children[i]?).bind (kindAt? l · p) := by
  simp only [kindAt?, Node.at?_cons, Option.bind_assoc]

/-- The node at the position is chunkable and no node above it is. -/
def Topmost (n : Node) (p : Position) : Prop :=
  (kindAt? l n p).isSome ∧ ∀ q, q <+: p → q ≠ p → kindAt? l n q = none

theorem topmost_of_chunkable {n : Node} (h : (l.classify n.kind).isSome) {p : Position} :
    Topmost l n p ↔ p = [] := by
  constructor
  · rintro ⟨-, hp⟩
    by_contra hne
    have hroot : l.classify n.kind = none := hp [] List.nil_prefix (Ne.symm hne)
    simp [hroot] at h
  · rintro rfl
    refine ⟨h, fun q hq hne => ?_⟩
    exact absurd (List.prefix_nil.1 hq) hne

theorem not_topmost_nil {n : Node} (h : l.classify n.kind = none) : ¬Topmost l n [] := by
  simp [Topmost, h]

theorem topmost_cons {n : Node} (h : l.classify n.kind = none) {i : Nat} {p : Position} :
    Topmost l n (i :: p) ↔ ∃ c, n.children[i]? = some c ∧ Topmost l c p := by
  constructor
  · rintro ⟨hp, habove⟩
    rw [kindAt?_cons] at hp
    obtain ⟨c, hc⟩ : ∃ c, n.children[i]? = some c := by
      cases hc : n.children[i]? with
      | none => simp [hc] at hp
      | some c => exact ⟨c, rfl⟩
    refine ⟨c, hc, by simpa [hc] using hp, fun q hq hne => ?_⟩
    have := habove (i :: q) (List.cons_prefix_cons.2 ⟨rfl, hq⟩) (by simpa using hne)
    simpa [kindAt?_cons, hc] using this
  · rintro ⟨c, hc, hp, habove⟩
    refine ⟨by simpa [kindAt?_cons, hc] using hp, fun q hq hne => ?_⟩
    cases q with
    | nil => exact h
    | cons j q =>
      obtain ⟨rfl, hqp⟩ := List.cons_prefix_cons.1 hq
      simpa [kindAt?_cons, hc] using habove q hqp (by simpa using hne)

mutual

def rootPositions : Node → List Position
  | .mk label cs => if (l.classify label.kind).isSome then [[]] else rootPositionsFrom 0 cs

def rootPositionsFrom (i : Nat) : List Node → List Position
  | [] => []
  | n :: ns => (rootPositions n).map (i :: ·) ++ rootPositionsFrom (i + 1) ns

end

theorem rootPositions_of_chunkable {n : Node} (h : (l.classify n.kind).isSome) :
    rootPositions l n = [[]] := by
  cases n
  exact if_pos h

theorem rootPositions_of_not_chunkable {n : Node} (h : l.classify n.kind = none) :
    rootPositions l n = rootPositionsFrom l 0 n.children := by
  cases n
  rw [rootPositions, if_neg]
  · rfl
  · simpa [Node.kind] using h

theorem mem_rootPositionsFrom {i : Nat} {ns : List Node} {p : Position} :
    p ∈ rootPositionsFrom l i ns ↔
      ∃ j c q, p = (i + j) :: q ∧ ns[j]? = some c ∧ q ∈ rootPositions l c := by
  induction ns generalizing i with
  | nil => simp [rootPositionsFrom]
  | cons n ns ih =>
    simp only [rootPositionsFrom, List.mem_append, List.mem_map, ih]
    constructor
    · rintro (⟨q, hq, rfl⟩ | ⟨j, c, q, rfl, hj, hq⟩)
      · exact ⟨0, n, q, rfl, rfl, hq⟩
      · exact ⟨j + 1, c, q, by simp; omega, hj, hq⟩
    · rintro ⟨j, c, q, rfl, hj, hq⟩
      cases j with
      | zero =>
        cases hj
        exact .inl ⟨q, hq, rfl⟩
      | succ j => exact .inr ⟨j, c, q, by simp; omega, hj, hq⟩

theorem mem_rootPositions {n : Node} {p : Position} :
    p ∈ rootPositions l n ↔ Topmost l n p := by
  induction n using Node.induction generalizing p with
  | mk label cs ih =>
    cases h : l.classify (Node.mk label cs).kind with
    | some kind =>
      have hsome : (l.classify (Node.mk label cs).kind).isSome := by simp [h]
      simp [rootPositions_of_chunkable l hsome, topmost_of_chunkable l hsome]
    | none =>
      rw [rootPositions_of_not_chunkable l h, mem_rootPositionsFrom]
      cases p with
      | nil => simp [not_topmost_nil l h]
      | cons i p =>
        rw [topmost_cons l h]
        constructor
        · rintro ⟨j, c, q, hp, hc, hq⟩
          obtain ⟨rfl, rfl⟩ : i = j ∧ p = q := by simpa using hp
          exact ⟨c, hc, (ih c (List.mem_of_getElem? hc)).1 hq⟩
        · rintro ⟨c, hc, hp⟩
          exact ⟨i, c, p, by simp, hc, (ih c (List.mem_of_getElem? hc)).2 hp⟩

theorem pairwise_rootPositionsFrom {i : Nat} {ns : List Node}
    (h : ∀ n ∈ ns, (rootPositions l n).Pairwise (· < ·)) :
    (rootPositionsFrom l i ns).Pairwise (· < ·) := by
  induction ns generalizing i with
  | nil => exact .nil
  | cons n ns ih =>
    rw [rootPositionsFrom, List.pairwise_append]
    refine ⟨?_, ih fun m hm => h m (by simp [hm]), ?_⟩
    · rw [List.pairwise_map]
      exact (h n (by simp)).imp List.cons_lt_cons_self.2
    -- Whatever hangs from a later sibling starts with a larger number.
    · intro p hp q hq
      obtain ⟨p, -, rfl⟩ := List.mem_map.1 hp
      obtain ⟨j, c, q, rfl, -⟩ := (mem_rootPositionsFrom l).1 hq
      exact List.Lex.rel (by omega)

theorem pairwise_rootPositions (n : Node) : (rootPositions l n).Pairwise (· < ·) := by
  induction n using Node.induction with
  | mk label cs ih =>
    cases h : l.classify (Node.mk label cs).kind with
    | some kind =>
      rw [rootPositions_of_chunkable l (by simp [h])]
      exact List.pairwise_singleton _ _
    | none =>
      rw [rootPositions_of_not_chunkable l h]
      exact pairwise_rootPositionsFrom l ih

theorem chunkRoots_cons_of_chunkable {s : Site} {kind : Kind}
    (h : l.classify s.node.kind = some kind) (rest : List Site) :
    chunkRoots l (s :: rest) = (s, kind) :: chunkRoots l rest := by
  rw [chunkRoots, h]

theorem chunkRoots_cons_of_not_chunkable {s : Site} (h : l.classify s.node.kind = none)
    (rest : List Site) : chunkRoots l (s :: rest) = chunkRoots l (s.node.sites ++ rest) := by
  rw [chunkRoots, h]

theorem chunkRoots_append (ss ts : List Site) :
    chunkRoots l (ss ++ ts) = chunkRoots l ss ++ chunkRoots l ts := by
  fun_induction chunkRoots l ss with
  | case1 => rfl
  | case2 s rest kind h ih =>
    rw [List.cons_append, chunkRoots_cons_of_chunkable l h, ih, List.cons_append]
  | case3 s rest h ih =>
    rw [List.cons_append, chunkRoots_cons_of_not_chunkable l h, ← List.append_assoc, ih]

def rootAt? (s : Site) (p : Position) : Option (Site × Kind) :=
  (s.at? p).bind fun t => (l.classify t.node.kind).map (t, ·)

theorem rootAt?_cons (s : Site) (i : Nat) (p : Position) :
    rootAt? l s (i :: p) = (s.node.sites[i]?).bind (rootAt? l · p) := by
  simp only [rootAt?, Site.at?_cons, Option.bind_assoc]

/-- A row of siblings is worked through one by one; `s` is their parent, and `done` are the children
before them. -/
theorem chunkRoots_sitesFrom {s : Site} (done : List Site) (before ns : List Node)
    (hs : s.node.sites = done ++ sitesFrom before ns)
    (h : ∀ t : Site, t.node ∈ ns →
      (chunkRoots l [t]).map some = (rootPositions l t.node).map (rootAt? l t)) :
    (chunkRoots l (sitesFrom before ns)).map some =
      (rootPositionsFrom l done.length ns).map (rootAt? l s) := by
  induction ns generalizing done before with
  | nil => simp [sitesFrom, chunkRoots, rootPositionsFrom]
  | cons n ns ih =>
    have hn : s.node.sites[done.length]? = some ⟨n, before⟩ := by simp [hs, sitesFrom]
    have hhead := h ⟨n, before⟩ (by simp)
    have htail := ih (done ++ [⟨n, before⟩]) (n :: before) (by simp [hs, sitesFrom]) fun t ht =>
      h t (by simp [ht])
    rw [sitesFrom, ← List.singleton_append, chunkRoots_append, List.map_append, hhead, htail,
      rootPositionsFrom, List.map_append, List.length_append]
    congr 1
    rw [List.map_map]
    apply List.map_congr_left
    intro p _
    simp [rootAt?_cons, hn]

theorem map_some_chunkRoots (s : Site) :
    (chunkRoots l [s]).map some = (rootPositions l s.node).map (rootAt? l s) := by
  obtain ⟨n, before⟩ := s
  induction n using Node.induction generalizing before with
  | mk label cs ih =>
    cases h : l.classify (Node.mk label cs).kind with
    | some kind =>
      rw [chunkRoots_cons_of_chunkable l h, rootPositions_of_chunkable l (by simp [h])]
      simp [chunkRoots, rootAt?, h]
    | none =>
      rw [chunkRoots_cons_of_not_chunkable l h, rootPositions_of_not_chunkable l h,
        List.append_nil]
      exact chunkRoots_sitesFrom l [] [] cs rfl fun t ht => ih t.node ht t.before

theorem exists_topmost_prefix {n : Node} {p : Position} (h : (kindAt? l n p).isSome) :
    ∃ q, q <+: p ∧ Topmost l n q := by
  induction p generalizing n with
  | nil => exact ⟨[], List.prefix_rfl, (topmost_of_chunkable l h).2 rfl⟩
  | cons i p ih =>
    cases hn : l.classify n.kind with
    | some kind => exact ⟨[], List.nil_prefix, (topmost_of_chunkable l (by simp [hn])).2 rfl⟩
    | none =>
      rw [kindAt?_cons] at h
      cases hc : n.children[i]? with
      | none => simp [hc] at h
      | some c =>
        obtain ⟨q, hq, htop⟩ := ih (n := c) (by simpa [hc] using h)
        exact ⟨i :: q, List.cons_prefix_cons.2 ⟨rfl, hq⟩, (topmost_cons l hn).2 ⟨c, hc, htop⟩⟩

theorem eq_of_isPrefix_of_topmost {n : Node} {p q : Position} (hp : Topmost l n p)
    (hq : Topmost l n q) (h : p <+: q) : p = q := by
  by_contra hne
  have hnone : kindAt? l n p = none := hq.2 p h hne
  have hsome := hp.1
  simp [hnone] at hsome

theorem topmost_prefix_unique {n : Node} {p q r : Position} (hq : q <+: p) (hr : r <+: p)
    (hqtop : Topmost l n q) (hrtop : Topmost l n r) : q = r := by
  rcases List.prefix_or_prefix_of_prefix hq hr with h | h
  · exact eq_of_isPrefix_of_topmost l hqtop hrtop h
  · exact (eq_of_isPrefix_of_topmost l hrtop hqtop h).symm

theorem map_fst_rootAt? {s : Site} {p : Position} (h : (kindAt? l s.node p).isSome) :
    (rootAt? l s p).map Prod.fst = s.at? p := by
  rw [kindAt?, ← Site.map_node_at?] at h
  rw [rootAt?]
  cases hs : s.at? p with
  | none => rfl
  | some t =>
    obtain ⟨kind, hkind⟩ := Option.isSome_iff_exists.1 (by simpa [hs] using h)
    simp [hkind]

theorem map_some_raw (withDetails : Bool) (source filePath : String) (root : Node) :
    (extract l withDetails source filePath root).raw.map some =
      (rootPositions l root).map fun p =>
        (Site.at? ⟨root, []⟩ p).map (rawChunk l withDetails source) := by
  calc
    (extract l withDetails source filePath root).raw.map some =
        ((chunkRoots l [⟨root, []⟩]).map some).map
          (Option.map fun r => rawChunk l withDetails source r.1) := by
      simp [extract]
    _ = (rootPositions l root).map fun p =>
          ((rootAt? l ⟨root, []⟩ p).map Prod.fst).map (rawChunk l withDetails source) := by
      rw [map_some_chunkRoots, List.map_map]
      simp [Function.comp_def]
    _ = (rootPositions l root).map fun p =>
          (Site.at? ⟨root, []⟩ p).map (rawChunk l withDetails source) := by
      apply List.map_congr_left
      intro p hp
      rw [map_fst_rootAt? l ((mem_rootPositions l).1 hp).1]

/-- One chunk for each topmost chunkable node, in document order. -/
theorem extract_raw_topmost (policy : Policy) (withDetails : Bool) (source filePath : String)
    (root : Node) :
    ∃ roots : List Position,
      roots.Pairwise (· < ·) ∧
      (∀ p, p ∈ roots ↔ Topmost policy.language root p) ∧
      (chunkRoots policy.language [⟨root, []⟩]).map some =
        roots.map (rootAt? policy.language ⟨root, []⟩) ∧
      (extract policy.language withDetails source filePath root).raw.map some =
        (roots.map fun p =>
          (Site.at? ⟨root, []⟩ p).map (rawChunk policy.language withDetails source)) ∧
      ∀ p, (kindAt? policy.language root p).isSome → ∃! q, q ∈ roots ∧ q <+: p := by
  refine ⟨rootPositions policy.language root, pairwise_rootPositions _ root,
    fun p => mem_rootPositions _, map_some_chunkRoots _ ⟨root, []⟩,
    map_some_raw _ withDetails source filePath root, fun p hp => ?_⟩
  obtain ⟨q, hq, htop⟩ := exists_topmost_prefix _ hp
  refine ⟨q, ⟨(mem_rootPositions _).2 htop, hq⟩, fun r hr => ?_⟩
  exact topmost_prefix_unique _ hr.2 hq ((mem_rootPositions _).1 hr.1) htop

end CodeChunks.Extraction
