namespace CodeChunks

structure Entries (α : Type) where
  toList : List (String × α) := []
  sorted : toList.Pairwise (·.1 < ·.1) := by exact .nil
  deriving DecidableEq, Repr

namespace Entries

variable {α : Type}

@[ext] theorem ext {a b : Entries α} (h : a.toList = b.toList) : a = b := by
  cases a; cases b; cases h; rfl

def empty : Entries α := {}

instance : Inhabited (Entries α) := ⟨empty⟩

def get? (e : Entries α) (key : String) : Option α :=
  (e.toList.find? (·.1 == key)).map (·.2)

def isEmpty (e : Entries α) : Bool := e.toList.isEmpty

def insertInto (key : String) (a : α) : List (String × α) → List (String × α)
  | [] => [(key, a)]
  | e :: es =>
    if key < e.1 then (key, a) :: e :: es
    else if key = e.1 then (key, a) :: es
    else e :: insertInto key a es

theorem mem_insertInto {key : String} {a : α} {es : List (String × α)} {e : String × α}
    (h : e ∈ insertInto key a es) : e = (key, a) ∨ e ∈ es := by
  induction es with
  | nil => simpa [insertInto] using h
  | cons d ds ih => grind [insertInto]

theorem sorted_insertInto (key : String) (a : α) {es : List (String × α)}
    (h : es.Pairwise (·.1 < ·.1)) : (insertInto key a es).Pairwise (·.1 < ·.1) := by
  induction es with
  | nil => simp [insertInto]
  | cons d ds ih =>
    rw [List.pairwise_cons] at h
    simp only [insertInto]
    split
    · rename_i hlt
      refine List.pairwise_cons.2 ⟨fun e he => ?_, List.pairwise_cons.2 h⟩
      rcases List.mem_cons.1 he with rfl | he
      · exact hlt
      · exact String.lt_trans hlt (h.1 e he)
    · split
      · rename_i heq
        exact List.pairwise_cons.2 ⟨fun e he => heq ▸ h.1 e he, h.2⟩
      · rename_i hlt hne
        refine List.pairwise_cons.2 ⟨fun e he => ?_, ih h.2⟩
        rcases mem_insertInto he with rfl | he
        · exact Std.lt_of_le_of_ne (String.not_lt.1 hlt) (Ne.symm hne)
        · exact h.1 e he

def insert (e : Entries α) (key : String) (a : α) : Entries α :=
  ⟨insertInto key a e.toList, sorted_insertInto key a e.sorted⟩

def ofList (es : List (String × α)) : Entries α :=
  es.foldl (fun e (key, a) => e.insert key a) empty

def modify (e : Entries α) (key : String) (f : Option α → α) : Entries α :=
  e.insert key (f (e.get? key))

theorem insertInto_of_lt (key : String) (a : α) {es : List (String × α)}
    (h : ∀ e ∈ es, e.1 < key) : insertInto key a es = es ++ [(key, a)] := by
  induction es with
  | nil => rfl
  | cons d ds ih =>
    have hd := h d (by simp)
    have hne : key ≠ d.1 := fun heq => String.lt_irrefl key (heq ▸ hd)
    simp [insertInto, String.lt_asymm hd, hne, ih fun e he => h e (by simp [he])]

theorem foldl_insert_toList (e : Entries α) (es : List (String × α))
    (h : (e.toList ++ es).Pairwise (·.1 < ·.1)) :
    (es.foldl (fun e (key, a) => e.insert key a) e).toList = e.toList ++ es := by
  induction es generalizing e with
  | nil => simp
  | cons d ds ih =>
    have hlt : ∀ x ∈ e.toList, x.1 < d.1 := fun x hx =>
      (List.pairwise_append.1 h).2.2 x hx d (by simp)
    have hins : (e.insert d.1 d.2).toList = e.toList ++ [d] := insertInto_of_lt d.1 d.2 hlt
    rw [List.foldl_cons, ih]
    · simp [hins]
    · simpa [hins] using h

@[simp] theorem ofList_toList (e : Entries α) : ofList e.toList = e := by
  apply ext
  simpa [ofList, empty] using foldl_insert_toList (empty : Entries α) e.toList
    (by simpa [empty] using e.sorted)

end Entries

end CodeChunks
