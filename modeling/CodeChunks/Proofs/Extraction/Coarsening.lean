import CodeChunks.Proofs.Extraction.Topmost

namespace CodeChunks

theorem Language.isSome_classify (l : Language) (nodeKind : String) :
    (l.classify nodeKind).isSome ↔ ∃ kind ∈ l.kinds, kind.nodeKind = nodeKind := by
  simp [Language.classify]

namespace Extraction

open Syntax

def furtherKinds (wide narrow : Language) : List Kind := wide.kinds.filter (· ∉ narrow.kinds)

example : furtherKinds .typescript .javascript =
    [.interfaceDeclaration, .typeAliasDeclaration, .enumDeclaration, .abstractClassDeclaration,
      .functionSignature, .internalModule, .publicFieldDefinition] := rfl

def OfKindAt (kinds : List Kind) (n : Node) (p : Position) : Prop :=
  ∃ m, n.at? p = some m ∧ ∃ kind ∈ kinds, kind.nodeKind = m.kind

theorem isSome_kindAt? (l : Language) (n : Node) (p : Position) :
    (kindAt? l n p).isSome ↔ OfKindAt l.kinds n p := by
  rw [kindAt?, OfKindAt]
  cases n.at? p with
  | none => simp
  | some m => simp [Language.isSome_classify]

theorem topmost_iff (l : Language) (n : Node) (p : Position) :
    Topmost l n p ↔
      OfKindAt l.kinds n p ∧ ∀ q, q <+: p → q ≠ p → ¬OfKindAt l.kinds n q := by
  simp only [Topmost, ← isSome_kindAt?, Option.not_isSome_iff_eq_none]

theorem existsUnique_root_above {l : Language} {n : Node} {p : Position}
    (h : OfKindAt l.kinds n p) : ∃! q, q ∈ rootPositions l n ∧ q <+: p := by
  obtain ⟨q, hq, htop⟩ := exists_topmost_prefix l ((isSome_kindAt? l n p).2 h)
  refine ⟨q, ⟨(mem_rootPositions l).2 htop, hq⟩, ?_⟩
  rintro r ⟨hr, hrp⟩
  exact topmost_prefix_unique l hrp hq ((mem_rootPositions l).1 hr) htop

section Wider

variable {narrow wide : Language} (hwide : narrow.kinds ⊆ wide.kinds) {n : Node} {p : Position}

include hwide

theorem ofKindAt_wide_iff :
    OfKindAt wide.kinds n p ↔
      OfKindAt narrow.kinds n p ∨ OfKindAt (furtherKinds wide narrow) n p := by
  constructor
  · rintro ⟨m, hm, kind, hkind, hname⟩
    by_cases hnarrow : kind ∈ narrow.kinds
    · exact .inl ⟨m, hm, kind, hnarrow, hname⟩
    · exact .inr ⟨m, hm, kind, by simp [furtherKinds, hkind, hnarrow], hname⟩
  · rintro (⟨m, hm, kind, hkind, hname⟩ | ⟨m, hm, kind, hkind, hname⟩)
    · exact ⟨m, hm, kind, hwide hkind, hname⟩
    · exact ⟨m, hm, kind, List.mem_of_mem_filter hkind, hname⟩

theorem topmost_wide_iff (hp : Topmost narrow n p) :
    Topmost wide n p ↔
      ∀ q, q <+: p → q ≠ p → ¬OfKindAt (furtherKinds wide narrow) n q := by
  rw [topmost_iff] at hp ⊢
  constructor
  · rintro ⟨-, habove⟩ q hq hne hfurther
    exact habove q hq hne ((ofKindAt_wide_iff hwide).2 (.inr hfurther))
  · intro hclear
    refine ⟨(ofKindAt_wide_iff hwide).2 (.inl hp.1), fun q hq hne hkind => ?_⟩
    rcases (ofKindAt_wide_iff hwide).1 hkind with hnarrow | hfurther
    · exact hp.2 q hq hne hnarrow
    · exact hclear q hq hne hfurther

theorem topmost_narrow_of_topmost_wide (hp : Topmost wide n p)
    (hkind : OfKindAt narrow.kinds n p) : Topmost narrow n p := by
  rw [topmost_iff] at hp ⊢
  refine ⟨hkind, fun q hq hne hnarrow => ?_⟩
  exact hp.2 q hq hne ((ofKindAt_wide_iff hwide).2 (.inl hnarrow))

end Wider

/-- Each root found in a tree under JavaScript lies at or below exactly one root under TypeScript,
and is that root itself unless it stands below a node of a kind that only TypeScript chunks; a root
under TypeScript whose kind JavaScript chunks is a root under JavaScript. -/
theorem typescript_coarsens_javascript (root : Node) :
    (∀ l, (chunkRoots l [⟨root, []⟩]).map some =
        (rootPositions l root).map (rootAt? l ⟨root, []⟩)) ∧
      (∀ p ∈ rootPositions .javascript root,
        (∃! q, q ∈ rootPositions .typescript root ∧ q <+: p) ∧
        (p ∈ rootPositions .typescript root ↔
          ∀ q, q <+: p → q ≠ p → ¬OfKindAt (furtherKinds .typescript .javascript) root q)) ∧
      ∀ p ∈ rootPositions .typescript root,
        OfKindAt Language.javascript.kinds root p → p ∈ rootPositions .javascript root := by
  have hwide : Language.javascript.kinds ⊆ Language.typescript.kinds := by decide
  simp only [mem_rootPositions]
  refine ⟨fun l => map_some_chunkRoots l ⟨root, []⟩, fun p hp => ⟨?_, ?_⟩, fun p hp hkind => ?_⟩
  · have hkind := (ofKindAt_wide_iff hwide).2 (.inl ((topmost_iff _ root p).1 hp).1)
    simpa only [mem_rootPositions] using existsUnique_root_above hkind
  · exact topmost_wide_iff hwide hp
  · exact topmost_narrow_of_topmost_wide hwide hp hkind

end Extraction

end CodeChunks
