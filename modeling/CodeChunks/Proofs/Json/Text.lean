import CodeChunks.Proofs.Json.Lexemes

namespace CodeChunks.Json

/-- A value whose numbers are natural numbers. -/
inductive Whole : Json → Prop
  | null : Whole .null
  | bool (b : Bool) : Whole (.bool b)
  | nat (n : Nat) : Whole (.nat n)
  | str (s : String) : Whole (.str s)
  | arr {items : List Json} : (∀ j ∈ items, Whole j) → Whole (.arr items)
  | obj {members : List (String × Json)} : (∀ m ∈ members, Whole m.2) → Whole (.obj members)

def Spaces (cs : List Char) : Prop := ∀ c ∈ cs, isSpace c

structure Layout.Sparse (l : Layout) : Prop where
  opening : ∀ depth, Spaces (l.opening depth).toList
  between : ∀ depth, ∃ ws, Spaces ws ∧ (l.between depth).toList = ',' :: ws
  closing : ∀ depth, Spaces (l.closing depth).toList
  colon : ∃ ws, Spaces ws ∧ l.colon.toList = ':' :: ws

theorem spaces_nil : Spaces [] := fun _ h => absurd h List.not_mem_nil

theorem Layout.compact_sparse : Layout.compact.Sparse where
  opening _ := spaces_nil
  between _ := ⟨[], spaces_nil, by simp [Layout.compact]⟩
  closing _ := spaces_nil
  colon := ⟨[], spaces_nil, by simp [Layout.compact]⟩

theorem toList_pushn (s : String) (c : Char) (n : Nat) :
    (s.pushn c n).toList = s.toList ++ List.replicate n c := by
  rw [String.pushn_eq_repeat_push]
  induction n with
  | zero => simp [Nat.repeat]
  | succ n ih => simp [Nat.repeat, ih, List.replicate_succ']

theorem spaces_indent (depth : Nat) : Spaces (indent depth).toList := by
  intro c hc
  simp only [indent, String.toList_append, toList_pushn, String.toList_empty, List.nil_append,
    List.mem_append, List.mem_replicate] at hc
  rcases hc with hc | ⟨-, rfl⟩
  · obtain rfl : c = '\n' := by simpa using hc
    rfl
  · rfl

theorem Layout.indented_sparse : Layout.indented.Sparse where
  opening depth := spaces_indent (depth + 1)
  between depth := ⟨_, spaces_indent (depth + 1), by simp [Layout.indented]⟩
  closing := spaces_indent
  colon := ⟨[' '], by simp [Spaces, isSpace], rfl⟩

theorem skipSpace_append {ws : List Char} (h : Spaces ws) (cs : List Char) :
    skipSpace (ws ++ cs) = skipSpace cs := List.dropWhile_append_of_pos h

theorem skipSpace_cons {c : Char} (h : isSpace c = false) (cs : List Char) :
    skipSpace (c :: cs) = c :: cs := by simp [skipSpace, h]

def Opens (c : Char) : Prop :=
  c = '"' ∨ c = '[' ∨ c = '\x7b' ∨ c = 'n' ∨ c = 't' ∨ c = 'f' ∨ c.isDigit

theorem Opens.ne {c d : Char} (h : Opens c) (hd : ¬Opens d) : c ≠ d := by
  rintro rfl
  exact hd h

theorem Opens.isSpace {c : Char} (h : Opens c) : isSpace c = false := by
  rcases h with rfl | rfl | rfl | rfl | rfl | rfl | h
  case inr.inr.inr.inr.inr.inr =>
    rw [Bool.eq_false_iff]
    intro hspace
    simp only [Json.isSpace, Bool.or_eq_true, beq_iff_eq] at hspace
    rcases hspace with ((rfl | rfl) | rfl) | rfl <;> cases h
  all_goals rfl

section Printed

-- Each of these opens one line of the printer by computation.

variable (l : Layout) (depth : Nat)

theorem toList_render_null : (render l depth .null).toList = ['n', 'u', 'l', 'l'] := by
  change "null".toList = _
  simp

theorem toList_render_true : (render l depth (.bool true)).toList = ['t', 'r', 'u', 'e'] := by
  change "true".toList = _
  simp

theorem toList_render_false :
    (render l depth (.bool false)).toList = ['f', 'a', 'l', 's', 'e'] := by
  change "false".toList = _
  simp

theorem toList_render_nat (n : Nat) : (render l depth (.nat n)).toList = Nat.toDigits 10 n := by
  change (toString n).toList = _
  rw [Nat.toString_eq_ofList_toDigits, String.toList_ofList]

theorem toList_render_str (s : String) :
    (render l depth (.str s)).toList = '"' :: quoteTail s := toList_quote s

theorem toList_render_arr_nil : (render l depth (.arr [])).toList = ['[', ']'] := by
  change "[]".toList = _
  simp

theorem toList_render_arr_cons (j : Json) (js : List Json) :
    (render l depth (.arr (j :: js))).toList =
      '[' :: ((l.opening depth).toList ++ ((render l (depth + 1) j).toList ++
        ((renderItems l depth js).toList ++ ((l.closing depth).toList ++ [']'])))) := by
  change ("[" ++ l.opening depth ++ render l (depth + 1) j ++ renderItems l depth js ++
    l.closing depth ++ "]").toList = _
  simp

theorem toList_renderItems_cons (j : Json) (js : List Json) :
    (renderItems l depth (j :: js)).toList =
      (l.between depth).toList ++ ((render l (depth + 1) j).toList ++
        (renderItems l depth js).toList) := by
  change (l.between depth ++ render l (depth + 1) j ++ renderItems l depth js).toList = _
  simp

theorem toList_render_obj_nil : (render l depth (.obj [])).toList = ['\x7b', '\x7d'] := by
  change "\x7b\x7d".toList = _
  simp

theorem toList_render_obj_cons (k : String) (j : Json) (ms : List (String × Json)) :
    (render l depth (.obj ((k, j) :: ms))).toList =
      '\x7b' :: ((l.opening depth).toList ++ ('"' :: (quoteTail k ++ (l.colon.toList ++
        ((render l (depth + 1) j).toList ++
          ((renderMembers l depth ms).toList ++ ((l.closing depth).toList ++ ['\x7d']))))))) := by
  change ("\x7b" ++ l.opening depth ++ quote k ++ l.colon ++ render l (depth + 1) j ++
    renderMembers l depth ms ++ l.closing depth ++ "\x7d").toList = _
  simp [toList_quote]

theorem toList_renderMembers_cons (k : String) (j : Json) (ms : List (String × Json)) :
    (renderMembers l depth ((k, j) :: ms)).toList =
      (l.between depth).toList ++ ('"' :: (quoteTail k ++ (l.colon.toList ++
        ((render l (depth + 1) j).toList ++ (renderMembers l depth ms).toList)))) := by
  change (l.between depth ++ quote k ++ l.colon ++ render l (depth + 1) j ++
    renderMembers l depth ms).toList = _
  simp [toList_quote]

theorem opens_render {j : Json} (hj : j.Whole) :
    ∃ c cs, (render l depth j).toList = c :: cs ∧ Opens c := by
  cases hj with
  | null => exact ⟨'n', _, toList_render_null l depth, by simp [Opens]⟩
  | bool b =>
    cases b with
    | true => exact ⟨'t', _, toList_render_true l depth, by simp [Opens]⟩
    | false => exact ⟨'f', _, toList_render_false l depth, by simp [Opens]⟩
  | nat n =>
    obtain ⟨d, ds, hds, hd⟩ := Text.exists_toDigits_eq_cons n
    exact ⟨d, ds, by rw [toList_render_nat, hds], by simp [Opens, hd]⟩
  | str s => exact ⟨'"', _, toList_render_str l depth s, by simp [Opens]⟩
  | @arr items _ =>
    cases items with
    | nil => exact ⟨'[', _, toList_render_arr_nil l depth, by simp [Opens]⟩
    | cons j js => exact ⟨'[', _, toList_render_arr_cons l depth j js, by simp [Opens]⟩
  | @obj members _ =>
    cases members with
    | nil => exact ⟨'\x7b', _, toList_render_obj_nil l depth, by simp [Opens]⟩
    | cons m ms => exact ⟨'\x7b', _, toList_render_obj_cons l depth m.1 m.2 ms, by simp [Opens]⟩

end Printed

def ReadsBack (l : Layout) (j : Json) : Prop :=
  ∀ (depth fuel : Nat) (ws rest : List Char), Spaces ws → EndsNumber rest →
    (render l depth j).toList.length ≤ fuel →
    readValue fuel (ws ++ ((render l depth j).toList ++ rest)) = some (j, rest)

theorem ne_of_isDigit {d : Char} (hd : d.isDigit) :
    d ≠ '"' ∧ d ≠ '[' ∧ d ≠ '\x7b' ∧ d ≠ 'n' ∧ d ≠ 't' ∧ d ≠ 'f' := by
  refine ⟨?_, ?_, ?_, ?_, ?_, ?_⟩ <;> rintro rfl <;> cases hd

theorem readWord_of_isDigit {d : Char} (hd : d.isDigit) (cs : List Char) :
    readWord (d :: cs) = readNumber (d :: cs) := by
  obtain ⟨-, -, -, hn, ht, hf⟩ := ne_of_isDigit hd
  rw [readWord]
  · exact fun _ h => absurd (List.cons.inj h).1 hn
  · exact fun _ h => absurd (List.cons.inj h).1 ht
  · exact fun _ h => absurd (List.cons.inj h).1 hf

section Values

variable {fuel : Nat} {ws rest : List Char} (hws : Spaces ws)

include hws

theorem readValue_append (cs : List Char) :
    readValue (fuel + 1) (ws ++ cs) = readValue (fuel + 1) cs := by
  rw [readValue, readValue, skipSpace_append hws]

theorem readValue_nat (n : Nat) (hrest : EndsNumber rest) :
    readValue (fuel + 1) (ws ++ (Nat.toDigits 10 n ++ rest)) = some (.nat n, rest) := by
  have hnumber := readNumber_toDigits n hrest
  obtain ⟨d, ds, hds, hd⟩ := Text.exists_toDigits_eq_cons n
  have hopens : Opens d := by simp [Opens, hd]
  obtain ⟨hquote, hbracket, hbrace, -⟩ := ne_of_isDigit hd
  rw [hds, List.cons_append] at hnumber ⊢
  rw [readValue, skipSpace_append hws, skipSpace_cons hopens.isSpace]
  split
  next heq => exact absurd (List.cons.inj heq).1 hquote
  next heq => exact absurd (List.cons.inj heq).1 hbracket
  next heq => exact absurd (List.cons.inj heq).1 hbrace
  next => rw [readWord_of_isDigit hd, hnumber]

theorem readValue_str (s : String) :
    readValue (fuel + 1) (ws ++ ('"' :: (quoteTail s ++ rest))) = some (.str s, rest) := by
  calc
    _ = readValue (fuel + 1) ('"' :: (quoteTail s ++ rest)) := readValue_append hws _
    _ = (readString (quoteTail s ++ rest).length [] (quoteTail s ++ rest)).map
        fun r => (.str r.1, r.2) := rfl
    _ = _ := by rw [readString_quoteTail, Option.map_some]

theorem readValue_arr {c : Char} {os cs : List Char} (hos : Spaces os) (hc : Opens c) :
    readValue (fuel + 1) (ws ++ ('[' :: (os ++ (c :: cs)))) = readItems fuel [] (c :: cs) := by
  rw [readValue, skipSpace_append hws, skipSpace_cons rfl]
  simp only [skipSpace_append hos, skipSpace_cons hc.isSpace]
  split
  next heq => exact absurd (List.cons.inj heq).1 (hc.ne (by simp [Opens]))
  next => rfl

theorem readValue_obj {os cs : List Char} (hos : Spaces os) :
    readValue (fuel + 1) (ws ++ ('\x7b' :: (os ++ ('"' :: cs)))) =
      readMembers fuel [] ('"' :: cs) := by
  rw [readValue, skipSpace_append hws, skipSpace_cons rfl]
  simp only [skipSpace_append hos, skipSpace_cons (c := '"') rfl]
  rfl

theorem readKey_quote (k : String) :
    readKey (ws ++ ('"' :: (quoteTail k ++ (':' :: rest)))) = some (k, rest) := by
  rw [readKey, skipSpace_append hws, skipSpace_cons rfl]
  simp only [readString_quoteTail, Option.bind_eq_bind, Option.bind_some,
    skipSpace_cons (c := ':') rfl]

theorem endsNumber_append {c : Char} {cs : List Char} (hc : EndsNumber (c :: cs)) :
    EndsNumber (ws ++ c :: cs) := by
  cases ws with
  | nil => exact hc
  | cons w ws =>
    have hw := hws w (by simp)
    simp only [isSpace, Bool.or_eq_true, beq_iff_eq] at hw
    intro d hd
    obtain rfl : w = d := by simpa using hd
    rcases hw with ((rfl | rfl) | rfl) | rfl <;> decide

end Values

theorem endsNumber_mark {c : Char} (h : c = ',' ∨ c = ']' ∨ c = '\x7d') (cs : List Char) :
    EndsNumber (c :: cs) := by
  intro d hd
  obtain rfl : c = d := by simpa using hd
  rcases h with rfl | rfl | rfl <;> decide

section Steps

variable {fuel : Nat} {j : Json} {k : String} {cs ds ws rest : List Char}

theorem readItems_next {done : List Json} (hread : readValue fuel cs = some (j, ',' :: rest)) :
    readItems (fuel + 1) done cs = readItems fuel (j :: done) rest := by
  rw [readItems, hread]
  simp only [skipSpace_cons (c := ',') rfl]

theorem readItems_last {done : List Json}
    (hread : readValue fuel cs = some (j, ws ++ (']' :: rest))) (hws : Spaces ws) :
    readItems (fuel + 1) done cs = some (.arr (done.reverse ++ [j]), rest) := by
  rw [readItems, hread]
  simp only [skipSpace_append hws, skipSpace_cons (c := ']') rfl, List.reverse_cons]

theorem readMembers_next {done : List (String × Json)} (hkey : readKey cs = some (k, ds))
    (hread : readValue fuel ds = some (j, ',' :: rest)) :
    readMembers (fuel + 1) done cs = readMembers fuel ((k, j) :: done) rest := by
  rw [readMembers, hkey]
  simp only [hread, skipSpace_cons (c := ',') rfl]

theorem readMembers_last {done : List (String × Json)} (hkey : readKey cs = some (k, ds))
    (hread : readValue fuel ds = some (j, ws ++ ('\x7d' :: rest))) (hws : Spaces ws) :
    readMembers (fuel + 1) done cs = some (.obj (done.reverse ++ [(k, j)]), rest) := by
  rw [readMembers, hkey]
  simp only [hread, skipSpace_append hws, skipSpace_cons (c := '\x7d') rfl, List.reverse_cons]

end Steps

section Parts

variable {l : Layout} (hl : l.Sparse)

include hl

theorem readItems_render {j : Json} {js : List Json} (h : ∀ x ∈ j :: js, ReadsBack l x)
    (depth : Nat) {fuel : Nat} (done : List Json) {ws : List Char} (hws : Spaces ws)
    (rest : List Char)
    (hfuel : (render l (depth + 1) j).toList.length + (renderItems l depth js).toList.length <
      fuel) :
    readItems fuel done (ws ++ ((render l (depth + 1) j).toList ++
      ((renderItems l depth js).toList ++ ((l.closing depth).toList ++ (']' :: rest))))) =
        some (.arr (done.reverse ++ j :: js), rest) := by
  obtain ⟨fuel, rfl⟩ : ∃ f, fuel = f + 1 := ⟨fuel - 1, by omega⟩
  have hj : ReadsBack l j := h j (by simp)
  induction js generalizing j fuel done ws with
  | nil =>
    have hclosing := hl.closing depth
    have hend := endsNumber_append hclosing (endsNumber_mark (.inr (.inl rfl)) rest)
    simp only [renderItems, String.toList_empty, List.nil_append]
    exact readItems_last (hj (depth + 1) fuel ws _ hws hend (by omega)) hclosing
  | cons j' js ih =>
    obtain ⟨bs, hbs, hbetween⟩ := hl.between depth
    rw [toList_renderItems_cons, hbetween] at hfuel ⊢
    simp only [List.length_cons, List.length_append, List.cons_append, List.append_assoc]
      at hfuel ⊢
    rw [readItems_next (hj (depth + 1) fuel ws _ hws (endsNumber_mark (.inl rfl) _) (by omega))]
    obtain ⟨fuel, rfl⟩ : ∃ f, fuel = f + 1 := ⟨fuel - 1, by omega⟩
    have h' : ∀ x ∈ j' :: js, ReadsBack l x := fun x hx => h x (by simp [List.mem_cons.1 hx])
    rw [ih h' (j :: done) hbs fuel (by omega) (h' j' (by simp))]
    simp

theorem readMembers_render {k : String} {j : Json} {ms : List (String × Json)}
    (h : ∀ m ∈ (k, j) :: ms, ReadsBack l m.2) (depth : Nat) {fuel : Nat}
    (done : List (String × Json)) {ws : List Char} (hws : Spaces ws) (rest : List Char)
    (hfuel : (render l (depth + 1) j).toList.length + (renderMembers l depth ms).toList.length <
      fuel) :
    readMembers fuel done (ws ++ ('"' :: (quoteTail k ++ (l.colon.toList ++
      ((render l (depth + 1) j).toList ++ ((renderMembers l depth ms).toList ++
        ((l.closing depth).toList ++ ('\x7d' :: rest)))))))) =
          some (.obj (done.reverse ++ (k, j) :: ms), rest) := by
  obtain ⟨fuel, rfl⟩ : ∃ f, fuel = f + 1 := ⟨fuel - 1, by omega⟩
  obtain ⟨ks, hks, hcolon⟩ := hl.colon
  simp only [hcolon, List.cons_append]
  have hj : ReadsBack l j := h (k, j) (by simp)
  induction ms generalizing k j fuel done ws with
  | nil =>
    have hclosing := hl.closing depth
    have hend := endsNumber_append hclosing (endsNumber_mark (.inr (.inr rfl)) rest)
    simp only [renderMembers, String.toList_empty, List.nil_append]
    exact readMembers_last (readKey_quote hws k)
      (hj (depth + 1) fuel ks _ hks hend (by omega)) hclosing
  | cons m ms ih =>
    obtain ⟨k', j'⟩ := m
    obtain ⟨bs, hbs, hbetween⟩ := hl.between depth
    rw [toList_renderMembers_cons, hbetween, hcolon] at hfuel ⊢
    simp only [List.length_cons, List.length_append, List.cons_append, List.append_assoc]
      at hfuel ⊢
    rw [readMembers_next (readKey_quote hws k)
      (hj (depth + 1) fuel ks _ hks (endsNumber_mark (.inl rfl) _) (by omega))]
    obtain ⟨fuel, rfl⟩ : ∃ f, fuel = f + 1 := ⟨fuel - 1, by omega⟩
    have h' : ∀ m ∈ (k', j') :: ms, ReadsBack l m.2 :=
      fun m hm => h m (by simp [List.mem_cons.1 hm])
    rw [ih h' ((k, j) :: done) hbs fuel (by omega) (h' (k', j') (by simp))]
    simp

end Parts

theorem ReadsBack.of_succ {l : Layout} {j : Json} (hj : j.Whole)
    (h : ∀ (depth fuel : Nat) (ws rest : List Char), Spaces ws → EndsNumber rest →
      (render l depth j).toList.length ≤ fuel + 1 →
      readValue (fuel + 1) (ws ++ ((render l depth j).toList ++ rest)) = some (j, rest)) :
    ReadsBack l j := by
  intro depth fuel ws rest hws hrest hfuel
  cases fuel with
  | zero =>
    obtain ⟨c, cs, hcs, -⟩ := opens_render l depth hj
    simp [hcs] at hfuel
  | succ fuel => exact h depth fuel ws rest hws hrest hfuel

theorem readsBack {l : Layout} (hl : l.Sparse) {j : Json} (hj : j.Whole) : ReadsBack l j := by
  induction hj with
  | null =>
    apply ReadsBack.of_succ .null
    intro depth fuel ws rest hws _ _
    rw [toList_render_null]
    exact readValue_append hws _
  | bool b =>
    apply ReadsBack.of_succ (.bool b)
    intro depth fuel ws rest hws _ _
    cases b with
    | true =>
      rw [toList_render_true]
      exact readValue_append hws _
    | false =>
      rw [toList_render_false]
      exact readValue_append hws _
  | nat n =>
    apply ReadsBack.of_succ (.nat n)
    intro depth fuel ws rest hws hrest _
    rw [toList_render_nat]
    exact readValue_nat hws n hrest
  | str s =>
    apply ReadsBack.of_succ (.str s)
    intro depth fuel ws rest hws _ _
    rw [toList_render_str]
    exact readValue_str hws s
  | @arr items hitems ih =>
    apply ReadsBack.of_succ (.arr hitems)
    intro depth fuel ws rest hws _ hfuel
    cases items with
    | nil =>
      rw [toList_render_arr_nil]
      exact readValue_append hws _
    | cons j js =>
      obtain ⟨c, cs, hcs, hc⟩ := opens_render l (depth + 1) (hitems j (by simp))
      rw [toList_render_arr_cons] at hfuel ⊢
      simp only [List.length_cons, List.length_append, List.cons_append, List.append_assoc,
        List.nil_append] at hfuel ⊢
      rw [hcs, List.cons_append, readValue_arr hws (hl.opening depth) hc, ← List.cons_append,
        ← hcs]
      simpa using readItems_render hl ih depth [] spaces_nil rest (show _ < fuel by omega)
  | @obj members hmembers ih =>
    apply ReadsBack.of_succ (.obj hmembers)
    intro depth fuel ws rest hws _ hfuel
    cases members with
    | nil =>
      rw [toList_render_obj_nil]
      exact readValue_append hws _
    | cons m ms =>
      obtain ⟨k, j⟩ := m
      rw [toList_render_obj_cons] at hfuel ⊢
      simp only [List.length_cons, List.length_append, List.cons_append, List.append_assoc,
        List.nil_append] at hfuel ⊢
      rw [readValue_obj hws (hl.opening depth)]
      simpa using readMembers_render hl ih depth [] spaces_nil rest (show _ < fuel by omega)

theorem parse?_render {l : Layout} (hl : l.Sparse) {j : Json} (hj : j.Whole) :
    parse? (render l 0 j) = some j := by
  have hread := readsBack hl hj 0 ((render l 0 j).toList.length + 1) [] [] spaces_nil
    (by simp [EndsNumber]) (by omega)
  rw [List.nil_append, List.append_nil] at hread
  simp [parse?, hread, skipSpace]

theorem parse?_compact {j : Json} (hj : j.Whole) : parse? j.compact = some j :=
  parse?_render Layout.compact_sparse hj

theorem parse?_pretty {j : Json} (hj : j.Whole) : parse? j.pretty = some j :=
  parse?_render Layout.indented_sparse hj

end CodeChunks.Json
