import CodeChunks.Entries
import Mathlib.Algebra.GroupWithZero.Nat

namespace CodeChunks.Entries

variable {α : Type}

theorem find?_insertInto (key k : String) (a : α) (es : List (String × α)) :
    (insertInto key a es).find? (·.1 == k) =
      if key = k then some (key, a) else es.find? (·.1 == k) := by
  induction es with
  | nil => by_cases hk : key = k <;> simp [insertInto, hk]
  | cons d ds ih =>
    simp only [insertInto]
    split
    · by_cases hk : key = k <;> simp [hk]
    · split
      next heq => by_cases hk : key = k <;> simp [hk, ← heq]
      next hne =>
        rw [List.find?_cons, List.find?_cons, ih]
        by_cases hk : key = k
        · have hd : (d.1 == k) = false := by simp [← hk, Ne.symm hne]
          simp [hk, hd]
        · simp [hk]

theorem get?_insert (e : Entries α) (key k : String) (a : α) :
    (e.insert key a).get? k = if key = k then some a else e.get? k := by
  rw [get?, insert, find?_insertInto]
  split <;> rfl

theorem mem_toList_of_get? {e : Entries α} {key : String} {a : α} (h : e.get? key = some a) :
    (key, a) ∈ e.toList := by
  obtain ⟨⟨k, b⟩, hfind, rfl⟩ := Option.map_eq_some_iff.1 h
  obtain rfl : k = key := by simpa using List.find?_some hfind
  exact List.mem_of_find?_eq_some hfind

theorem find?_reverse_eq_some_iff {e : Entries α} {p : String × α → Bool} {x : String × α} :
    e.toList.reverse.find? p = some x ↔
      x ∈ e.toList ∧ p x ∧ ∀ y ∈ e.toList, p y → y.1 ≤ x.1 := by
  have hsplit (before after : List (String × α)) :
      e.toList.reverse = after ++ x :: before ↔
        e.toList = before.reverse ++ x :: after.reverse := by
    rw [List.reverse_eq_iff]
    simp
  rw [List.find?_eq_some_iff_append]
  constructor
  · rintro ⟨hx, after, before, heq, hafter⟩
    rw [hsplit] at heq
    refine ⟨by simp [heq], hx, ?_⟩
    intro y hy hpy
    have hsorted := heq ▸ e.sorted
    rw [heq, List.mem_append, List.mem_cons, List.mem_reverse, List.mem_reverse] at hy
    rcases hy with hy | rfl | hy
    · exact Std.le_of_lt ((List.pairwise_append.1 hsorted).2.2 y (by simpa using hy) x (by simp))
    · exact String.le_refl y.1
    · have hfails := hafter y hy
      rw [hpy] at hfails
      cases hfails
  · rintro ⟨hmem, hx, hgreatest⟩
    obtain ⟨before, after, heq⟩ := List.append_of_mem hmem
    refine ⟨hx, after.reverse, before.reverse, (hsplit _ _).2 (by simp [heq]), ?_⟩
    intro y hy
    rw [List.mem_reverse] at hy
    have hsorted := heq ▸ e.sorted
    have hlt : x.1 < y.1 := (List.pairwise_cons.1 (List.pairwise_append.1 hsorted).2.1).1 y hy
    rw [Bool.not_eq_true', Bool.eq_false_iff]
    intro hpy
    exact String.not_lt.2 (hgreatest y (by simp [heq, hy]) hpy) hlt

def sum (e : Entries Nat) : Nat := (e.toList.map (·.2)).sum

theorem find?_eq_none_of_lt {key : String} {es : List (String × α)}
    (h : ∀ d ∈ es, key < d.1) : es.find? (·.1 == key) = none := by
  rw [List.find?_eq_none]
  intro d hd heq
  have hlt := h d hd
  rw [eq_of_beq heq] at hlt
  exact String.lt_irrefl key hlt

theorem sum_insertInto (key : String) (n : Nat) {es : List (String × Nat)}
    (h : es.Pairwise (·.1 < ·.1)) :
    ((insertInto key n es).map (·.2)).sum + ((es.find? (·.1 == key)).map (·.2)).getD 0 =
      (es.map (·.2)).sum + n := by
  induction es with
  | nil => simp [insertInto]
  | cons d ds ih =>
    obtain ⟨hd, hds⟩ := List.pairwise_cons.1 h
    simp only [insertInto]
    split
    next hlt =>
      have hnone : (d :: ds).find? (·.1 == key) = none := by
        apply find?_eq_none_of_lt
        intro e he
        rcases List.mem_cons.1 he with rfl | he
        · exact hlt
        · exact String.lt_trans hlt (hd e he)
      rw [hnone]
      simp [Nat.add_comm]
    next =>
      split
      next heq =>
        have hfind : (d :: ds).find? (·.1 == key) = some d := by simp [heq]
        rw [hfind]
        simp only [List.map_cons, List.sum_cons, Option.map_some, Option.getD_some]
        omega
      next hne =>
        have ih := ih hds
        have hfind : (d :: ds).find? (·.1 == key) = ds.find? (·.1 == key) := by
          simp [Ne.symm hne]
        rw [hfind]
        simp only [List.map_cons, List.sum_cons]
        omega

theorem sum_insert (e : Entries Nat) (key : String) (n : Nat) :
    (e.insert key n).sum + (e.get? key).getD 0 = e.sum + n :=
  sum_insertInto key n e.sorted

end CodeChunks.Entries
