import CodeChunks.Text.Quoted
import Mathlib.Data.List.Basic

/-!
Quotation marks put around a text and taken off again. A mark encloses a text that begins and ends
with it, where the two occurrences share no character. Marks are tried in order, so the mark that
was put around a text comes off if no earlier one encloses the result. Main statement: taking marks
off gives back the text that was quoted, and leaves alone what is not quoted.
-/

namespace CodeChunks.Text

open List (replicate)

variable {mark cs rest body : List Char} {marks later : List (List Char)}

theorem stripPrefix?_eq_some_iff : stripPrefix? mark cs = some rest ↔ cs = mark ++ rest := by
  fun_induction stripPrefix? mark cs with
  | case1 cs => simp
  | case2 m ms => simp
  | case3 ms c cs ih => simp [ih]
  | case4 m ms c cs hne => simp [Ne.symm hne]

theorem stripSuffix?_eq_some_iff : stripSuffix? mark cs = some rest ↔ cs = rest ++ mark := by
  rw [stripSuffix?, Option.map_eq_some_iff]
  simp only [stripPrefix?_eq_some_iff]
  constructor
  · rintro ⟨back, hback, rfl⟩
    simpa using congrArg List.reverse hback
  · rintro rfl
    exact ⟨rest.reverse, List.reverse_append, List.reverse_reverse rest⟩

theorem between?_eq_some_iff : between? mark cs = some body ↔ cs = mark ++ body ++ mark := by
  rw [between?, Option.bind_eq_some_iff]
  simp only [stripPrefix?_eq_some_iff, stripSuffix?_eq_some_iff]
  constructor
  · rintro ⟨rest, rfl, rfl⟩
    exact (List.append_assoc _ _ _).symm
  · rintro rfl
    exact ⟨body ++ mark, List.append_assoc _ _ _, rfl⟩

/-- The mark opens and closes the text, and the two occurrences do not overlap. -/
def Encloses (mark cs : List Char) : Prop := ∃ body, cs = mark ++ body ++ mark

theorem between?_eq_none_iff : between? mark cs = none ↔ ¬Encloses mark cs := by
  rw [Option.eq_none_iff_forall_ne_some]
  simp only [ne_eq, between?_eq_some_iff, Encloses, not_exists]

theorem Encloses.isPrefix (h : Encloses mark cs) : mark <+: cs := by
  obtain ⟨body, rfl⟩ := h
  rw [List.append_assoc]
  exact List.prefix_append mark (body ++ mark)

theorem not_encloses_run {c q : Char} (h : c ≠ q) (k n : Nat) :
    ¬Encloses (replicate (k + 1) c) (replicate (n + 1) q ++ body ++ replicate (n + 1) q) := by
  intro hencloses
  have hprefix := hencloses.isPrefix
  rw [List.replicate_succ, List.replicate_succ, List.cons_append, List.cons_append] at hprefix
  exact h (List.cons_prefix_cons.1 hprefix).1

theorem encloses_tripled_iff {q : Char} :
    Encloses (replicate 3 q) (replicate 1 q ++ body ++ replicate 1 q) ↔
      Encloses (replicate 2 q) body := by
  apply exists_congr
  intro inner
  have hregroup : replicate 3 q ++ inner ++ replicate 3 q =
      replicate 1 q ++ (replicate 2 q ++ inner ++ replicate 2 q) ++ replicate 1 q := by
    simp [List.replicate_succ]
  rw [hregroup, List.append_left_inj, List.append_right_inj]

theorem unwrap_cons_self : unwrap (mark :: marks) (mark ++ body ++ mark) = body := by
  rw [unwrap, List.findSome?_cons, between?_eq_some_iff.2 rfl]
  rfl

theorem unwrap_cons_of_not_encloses (h : ¬Encloses mark cs) :
    unwrap (mark :: marks) cs = unwrap marks cs := by
  rw [unwrap, List.findSome?_cons, between?_eq_none_iff.2 h]
  rfl

theorem unwrap_append_of_not_encloses (h : ∀ mark ∈ marks, ¬Encloses mark cs) :
    unwrap (marks ++ later) cs = unwrap later cs := by
  induction marks with
  | nil => rfl
  | cons mark marks ih =>
    obtain ⟨hmark, hmarks⟩ := List.forall_mem_cons.1 h
    rw [List.cons_append, unwrap_cons_of_not_encloses hmark, ih hmarks]

theorem unwrap_eq_self_iff (hmarks : [] ∉ marks) :
    unwrap marks cs = cs ↔ ∀ mark ∈ marks, ¬Encloses mark cs := by
  induction marks with
  | nil => simp [unwrap]
  | cons mark marks ih =>
    rw [List.mem_cons, not_or] at hmarks
    rw [List.forall_mem_cons]
    by_cases hencloses : Encloses mark cs
    · simp only [hencloses, not_true_eq_false, false_and, iff_false]
      obtain ⟨body, rfl⟩ := hencloses
      rw [unwrap_cons_self]
      intro hbody
      have hlength := congrArg List.length hbody
      have hmark := List.length_pos_iff.2 (Ne.symm hmarks.1)
      simp only [List.length_append] at hlength
      omega
    · rw [unwrap_cons_of_not_encloses hencloses, ih hmarks.2]
      simp only [hencloses, not_false_eq_true, true_and]

theorem unwrap_runs {n : Nat} {q : Char} {quotes : List Char} (hq : q ∈ quotes) :
    unwrap (quotes.map (replicate (n + 1)) ++ later)
      (replicate (n + 1) q ++ body ++ replicate (n + 1) q) = body := by
  induction quotes with
  | nil => cases hq
  | cons c quotes ih =>
    rw [List.map_cons, List.cons_append]
    by_cases hc : c = q
    · rw [hc, unwrap_cons_self]
    · rw [unwrap_cons_of_not_encloses (not_encloses_run hc n n)]
      apply ih
      exact List.mem_of_ne_of_mem (Ne.symm hc) hq

theorem unwrap_singles {q : Char} {quotes : List Char} (hq : q ∈ quotes) :
    unwrap (quotes.map (replicate 1)) (replicate 1 q ++ body ++ replicate 1 q) = body := by
  rw [← List.append_nil (quotes.map _)]
  exact unwrap_runs hq

def literalQuotes : List Char := ['"', '\'']

theorem literalMarks_eq :
    literalMarks = literalQuotes.map (replicate 3) ++ literalQuotes.map (replicate 1) := rfl

theorem unwrap_literalMarks_tripled {q : Char} (hq : q ∈ literalQuotes) :
    unwrap literalMarks (replicate 3 q ++ body ++ replicate 3 q) = body := by
  rw [literalMarks_eq]
  exact unwrap_runs hq

/-- A body is lost between single quotes exactly when it brings two more at either end: then it
cannot be told from a shorter one between tripled quotes. -/
theorem unwrap_literalMarks_single_iff {q : Char} (hq : q ∈ literalQuotes) :
    unwrap literalMarks (replicate 1 q ++ body ++ replicate 1 q) = body ↔
      ¬Encloses (replicate 2 q) body := by
  constructor
  · rintro hbody ⟨inner, rfl⟩
    obtain ⟨tripled, htripled⟩ := encloses_tripled_iff.2 ⟨inner, rfl⟩
    rw [htripled, unwrap_literalMarks_tripled hq] at hbody
    have hlength := congrArg List.length htripled
    rw [hbody] at hlength
    simp only [List.length_append, List.length_replicate] at hlength
    omega
  · intro hbody
    rw [literalMarks_eq, unwrap_append_of_not_encloses]
    · exact unwrap_singles hq
    · intro mark hmark
      obtain ⟨c, -, rfl⟩ := List.mem_map.1 hmark
      by_cases hc : c = q
      · rwa [hc, encloses_tripled_iff]
      · exact not_encloses_run hc 2 0

theorem isLiteralPrefix_iff {c : Char} : isLiteralPrefix c ↔ c ∈ "rRbBuUfF".toList :=
  decide_eq_true_iff

theorem not_isLiteralPrefix_of_mem {q : Char} (hq : q ∈ literalQuotes) : ¬isLiteralPrefix q := by
  rcases List.mem_pair.1 hq with rfl | rfl
  · decide
  · decide

theorem literalBody_run {letters : String} {q : Char}
    (hletters : ∀ c ∈ letters.toList, isLiteralPrefix c) (hq : q ∈ literalQuotes) (n : Nat)
    (body : String) :
    literalBody (letters ++ String.ofList (replicate (n + 1) q) ++ body ++
        String.ofList (replicate (n + 1) q)) =
      String.ofList
        (unwrap literalMarks (replicate (n + 1) q ++ body.toList ++ replicate (n + 1) q)) := by
  rw [literalBody, String.toList_append, String.toList_append, String.toList_append,
    String.toList_ofList, List.append_assoc, List.append_assoc,
    List.dropWhile_append_of_pos hletters, List.replicate_succ, List.cons_append,
    List.dropWhile_cons_of_neg (not_isLiteralPrefix_of_mem hq), List.append_assoc, List.cons_append]

theorem exists_run_of_mem {mark : String} (h : mark ∈ ["\"\"\"", "'''", "\"", "'"]) :
    ∃ q ∈ literalQuotes,
      mark = String.ofList (replicate 3 q) ∨ mark = String.ofList (replicate 1 q) := by
  simp only [List.mem_cons, List.not_mem_nil, or_false] at h
  rcases h with rfl | rfl | rfl | rfl
  · exact ⟨'"', by decide, .inl rfl⟩
  · exact ⟨'\'', by decide, .inl rfl⟩
  · exact ⟨'"', by decide, .inr rfl⟩
  · exact ⟨'\'', by decide, .inr rfl⟩

def moduleQuotes : List Char := ['"', '\'', '\x60']

theorem moduleMarks_eq : moduleMarks = moduleQuotes.map (replicate 1) := rfl

def StandsAround (q : Char) (s : String) : Prop :=
  s.toList.head? = some q ∧ s.toList.getLast? = some q ∧ 1 < s.toList.length

theorem standsAround_iff {q : Char} {s : String} :
    StandsAround q s ↔ Encloses (replicate 1 q) s.toList := by
  constructor
  · rintro ⟨hfirst, hlast, hlength⟩
    obtain ⟨front, hfront⟩ := List.getLast?_eq_some_iff.1 hlast
    rw [hfront] at hfirst hlength
    cases front with
    | nil => exact absurd hlength (Nat.lt_irrefl 1)
    | cons c body =>
      obtain rfl : c = q := Option.some.inj hfirst
      exact ⟨body, hfront⟩
  · rintro ⟨body, hbody⟩
    rw [StandsAround, hbody]
    refine ⟨rfl, List.getLast?_concat, ?_⟩
    simp

theorem unquote_singleton {q : Char} (hq : q ∈ moduleQuotes) (body : String) :
    unquote (String.singleton q ++ body ++ String.singleton q) = body := by
  have htext : (String.singleton q ++ body ++ String.singleton q).toList =
      replicate 1 q ++ body.toList ++ replicate 1 q := by
    simp
  rw [unquote, htext, moduleMarks_eq, unwrap_singles hq, String.ofList_toList]

theorem unquote_eq_self_iff {s : String} :
    unquote s = s ↔ ∀ q ∈ moduleQuotes, ¬StandsAround q s := by
  rw [unquote, ← String.toList_inj, String.toList_ofList, moduleMarks_eq,
    unwrap_eq_self_iff (by decide), List.forall_mem_map]
  simp only [standsAround_iff]

/-- A literal gives back the body between its quotes, a quoted text what was quoted, and a text
changes only if it is quoted. -/
theorem quoting_undone :
    (∀ letters mark body : String, letters.toList ⊆ "rRbBuUfF".toList →
      mark ∈ ["\"\"\"", "'''", "\"", "'"] → (mark.length = 1 → ¬mark.toList <+: body.toList) →
      literalBody (letters ++ mark ++ body ++ mark) = body) ∧
    (∀ q ∈ ['"', '\'', '\x60'], ∀ body : String,
      unquote (String.singleton q ++ body ++ String.singleton q) = body) ∧
    ∀ s : String, unquote s = s ↔ ∀ q ∈ ['"', '\'', '\x60'], ¬StandsAround q s := by
  refine ⟨?_, fun q hq body => unquote_singleton hq body, fun s => unquote_eq_self_iff⟩
  intro letters mark body hletters hmark hbody
  have hprefix : ∀ c ∈ letters.toList, isLiteralPrefix c :=
    fun c hc => isLiteralPrefix_iff.2 (hletters hc)
  obtain ⟨q, hq, rfl | rfl⟩ := exists_run_of_mem hmark
  · rw [literalBody_run hprefix hq 2, unwrap_literalMarks_tripled hq, String.ofList_toList]
  · -- A body enclosed by the doubled quote would begin with the quote.
    have hdoubled : ¬Encloses (replicate 2 q) body.toList := by
      intro hencloses
      apply hbody (by simp)
      rw [String.toList_ofList]
      exact (List.prefix_append (replicate 1 q) (replicate 1 q)).trans hencloses.isPrefix
    rw [literalBody_run hprefix hq 0, (unwrap_literalMarks_single_iff hq).2 hdoubled,
      String.ofList_toList]

theorem quoting_undone_quotes_inside :
    ("Rb".toList ⊆ "rRbBuUfF".toList ∧ "\"" ∈ ["\"\"\"", "'''", "\"", "'"] ∧
      ¬"\"".toList <+: "r'''\\\"\"".toList ∧
      literalBody ("Rb" ++ "\"" ++ "r'''\\\"\"" ++ "\"") = "r'''\\\"\"") ∧
    ('\'' ∈ ['"', '\'', '\x60'] ∧
      unquote (String.singleton '\'' ++ "\"'" ++ String.singleton '\'') = "\"'") ∧
    (∀ q ∈ ['"', '\'', '\x60'], ¬StandsAround q "\"") ∧ unquote "\"" = "\"" := by
  have hlone : ∀ q ∈ ['"', '\'', '\x60'], ¬StandsAround q "\"" := by
    simp [StandsAround]
  refine ⟨⟨by decide, by decide, by decide, ?_⟩, ⟨by decide, ?_⟩, hlone, ?_⟩
  · exact quoting_undone.1 "Rb" "\"" "r'''\\\"\"" (by decide) (by decide) (by decide)
  · exact quoting_undone.2.1 '\'' (by decide) "\"'"
  · exact (quoting_undone.2.2 "\"").2 hlone

end CodeChunks.Text
