import CodeChunks.Chunker
import CodeChunks.Proofs.Registry.Loans
import Mathlib.Data.Finset.Card

/-!
Calls of a registry, one after the other: texts that are parsed, and texts that are chunked as well.
A parser is out only while its text is parsed, and is back whatever came of that. Main statement: a
new registry has a parser for each grammar that was used, all of them idle, and has reported each of
these grammars at its first use.
-/

namespace CodeChunks

namespace Event

def initial : Event → Char
  | .loading _ => 'L'
  | .unnamed .. => 'E'
  | .importWithoutSource _ => 'I'
  | .dropped .. => 'D'
  | .chunked .. => 'C'
  | .failed .. => 'F'

theorem head?_toList_append {s : String} {c : Char} (h : s.toList.head? = some c) (t : String) :
    (s ++ t).toList.head? = some c := by
  rw [String.toList_append, List.head?_append, h, Option.some_or]

theorem head?_message (e : Event) : e.message.toList.head? = some e.initial := by
  cases e with
  | loading | unnamed | importWithoutSource | dropped | chunked | failed =>
    unfold message
    repeat' apply head?_toList_append
    rfl

theorem message_eq_loading_iff {e : Event} {g : Grammar} :
    e.message = "Loading " ++ g.name ++ " grammar" ↔ e = .loading g := by
  constructor
  · intro h
    have hinitial : e.initial = 'L' := by
      have hhead := e.head?_message
      rw [h, show "Loading " ++ g.name ++ " grammar" = (loading g).message from rfl,
        head?_message] at hhead
      exact (Option.some.inj hhead).symm
    cases e with
    | loading g' => exact congrArg _ (Lending.loading_message_injective h)
    | unnamed | importWithoutSource | dropped | chunked | failed => simp [initial] at hinitial
  · rintro rfl
    rfl

end Event

/-- A chunker that takes its parsers from a registry in order tells of a text what a new parser
would. -/
theorem Chunker.chunkReported_answer {c : Chunker} {lib : ParserLibrary} (hr : c.registry.Filed)
    (hlib : lib.Dependable) (m : Memory) (policy : Policy) (filePath source : String) :
    (c.chunkReported lib m policy filePath source).2.2.1 =
      c.chunkText lib policy filePath source := by
  rw [chunkReported, chunkText, ← Registry.parse_answer hr hlib m policy source]
  obtain ⟨registry, m', tree, events⟩ := c.registry.parse lib m policy source
  cases tree with
  | error e => rfl
  | ok root => rfl

inductive Call where
  | parse (policy : Policy) (source : String)
  | chunk (config : Config) (policy : Policy) (filePath source : String)

def Call.grammar : Call → Grammar
  | .parse policy _ => policy.grammar
  | .chunk _ policy _ _ => policy.grammar

namespace Registry

def serve (r : Registry) (lib : ParserLibrary) (m : Memory) :
    Call → Registry × Memory × List Event
  | .parse policy source =>
    let (r, m, _, events) := r.parse lib m policy source
    (r, m, events)
  | .chunk config policy filePath source =>
    let (c, m, _, events) := Chunker.chunkReported ⟨config, r⟩ lib m policy filePath source
    (c.registry, m, events)

def serveAll (r : Registry) (lib : ParserLibrary) (calls : List Call) :
    Registry × Memory × List (List Event) :=
  calls.foldl
    (fun (r, m, log) call =>
      ((r.serve lib m call).1, (r.serve lib m call).2.1, log ++ [(r.serve lib m call).2.2]))
    (r, [], [])

def serveLast (r : Registry) (lib : ParserLibrary) (calls : List Call) (call : Call) :
    Registry × Memory × List Event :=
  (r.serveAll lib calls).1.serve lib (r.serveAll lib calls).2.1 call

theorem serveAll_concat (r : Registry) (lib : ParserLibrary) (calls : List Call) (call : Call) :
    r.serveAll lib (calls ++ [call]) =
      ((r.serveLast lib calls call).1, (r.serveLast lib calls call).2.1,
        (r.serveAll lib calls).2.2 ++ [(r.serveLast lib calls call).2.2]) := by
  simp [serveAll, serveLast]

variable {r : Registry} {lib : ParserLibrary}

theorem loading_not_mem_events (g : Grammar) (l : Language) (withDetails : Bool)
    (source filePath : String) (root : Syntax.Node) :
    .loading g ∉ (Extraction.extract l withDetails source filePath root).events := by
  intro h
  rcases List.mem_append.1 h with h | h
  · obtain ⟨site, -, hsite⟩ := List.mem_filterMap.1 h
    simp [Extraction.namingEvent?] at hsite
  · rw [Extraction.importEvents] at h
    split at h
    · simp at h
    · cases h

theorem loading_not_mem_treeEvents (g : Grammar) (config : Config) (policy : Policy)
    (filePath source : String) (root : Syntax.Node) :
    .loading g ∉ Chunker.treeEvents config policy filePath source root := by
  have hevents : (Chunker.extractFrom config policy filePath source root).events =
      (Extraction.extract policy.language config.includeDetails source filePath root).events := by
    rw [Chunker.extractFrom]
    split <;> rfl
  simp [Chunker.treeEvents, hevents, loading_not_mem_events, Assembly.dropEvents]

theorem serve_of_checkout {call : Call} {r' : Registry} {loan : Loan} {events : List Event}
    (h : r.checkout lib call.grammar = (r', .ok loan, events)) (m : Memory) :
    (r.serve lib m call).1 = r'.giveBack loan ∧
      ∃ more, (r.serve lib m call).2.2 = events ++ more ∧ ∀ g, .loading g ∉ more := by
  cases call with
  | parse policy source =>
    rw [serve, parse_of_checkout h]
    exact ⟨rfl, [], (List.append_nil _).symm, fun g => List.not_mem_nil⟩
  | chunk config policy filePath source =>
    rw [serve, Chunker.chunkReported, parse_of_checkout h]
    cases ParserLibrary.accept policy
        (lib.tree? loan.parser.grammar (m.past loan.parser) source) with
    | error e => exact ⟨rfl, [], (List.append_nil _).symm, fun g => List.not_mem_nil⟩
    | ok root =>
      refine ⟨rfl, _, rfl, ?_⟩
      intro g
      exact loading_not_mem_treeEvents g config policy filePath source root

/-- All parsers are idle, one for each grammar that was used, and these grammars are loaded. -/
structure Settled (used : List Grammar) (r : Registry) : Prop where
  back : ∀ g, (r.pool g).Perm (r.builtFor g)
  nodup : (r.built.map Parser.grammar).Nodup
  mem_built : ∀ g, g ∈ r.built.map Parser.grammar ↔ g ∈ used
  mem_loaded : ∀ g, g ∈ r.loaded ↔ g ∈ used

namespace Settled

variable {used : List Grammar} {g : Grammar}

theorem fresh (extensions : List (String × Policy)) : Settled [] (ofExtensions extensions) where
  back := by
    intro g
    rw [pool_ofExtensions]
    exact .nil
  nodup := .nil
  mem_built := fun _ => Iff.rfl
  mem_loaded := fun _ => Iff.rfl

theorem pool_eq_nil_iff (h : Settled used r) : r.pool g = [] ↔ g ∉ used := by
  have hperm := h.back g
  have hbuilt : r.builtFor g = [] ↔ g ∉ r.built.map Parser.grammar := by
    simp [builtFor, List.filter_eq_nil_iff]
  rw [← h.mem_built, ← hbuilt]
  constructor
  · intro hpool
    rwa [hpool, List.nil_perm] at hperm
  · intro hnone
    rwa [hnone, List.perm_nil] at hperm

theorem mem_of_pool (h : Settled used r) {p : Parser} {ps : List Parser}
    (hp : r.pool g = p :: ps) : g ∈ used := by
  by_contra hg
  rw [h.pool_eq_nil_iff.2 hg] at hp
  cases hp

theorem reborrow (h : Settled used r) {p : Parser} {ps : List Parser} (hp : r.pool g = p :: ps) :
    Settled (used ++ [g]) ((r.setPool g ps).giveBack ⟨g, p⟩) := by
  have hused : ∀ g', g' ∈ used ++ [g] ↔ g' ∈ used := by
    intro g'
    rw [List.mem_append, List.mem_singleton, or_iff_left_iff_imp]
    rintro rfl
    exact h.mem_of_pool hp
  refine ⟨?_, h.nodup, ?_, ?_⟩
  · intro g'
    have hpool : ((r.setPool g ps).giveBack ⟨g, p⟩).pool g' = r.pool g' := by
      rw [pool_giveBack, pool_setPool]
      by_cases hg : g = g'
      · rw [if_pos hg, if_pos hg, ← hg, hp]
      · rw [if_neg hg, if_neg hg]
    rw [hpool]
    exact h.back g'
  · intro g'
    rw [hused]
    exact h.mem_built g'
  · intro g'
    rw [hused]
    exact h.mem_loaded g'

theorem borrow_new (h : Settled used r) (hp : r.pool g = []) :
    Settled (used ++ [g])
      (({ (r.load g).1 with built := ⟨r.built.length, g⟩ :: r.built } : Registry).giveBack
        ⟨g, ⟨r.built.length, g⟩⟩) := by
  have hused := h.pool_eq_nil_iff.1 hp
  refine ⟨?_, ?_, ?_, ?_⟩
  · intro g'
    have hpool :
        ({ (r.load g).1 with built := ⟨r.built.length, g⟩ :: r.built } : Registry).pool g' =
          r.pool g' := pool_congr (load_idle r g) g'
    rw [pool_giveBack, hpool]
    by_cases hg : g = g'
    · simpa [builtFor, giveBack, setPool, hg] using h.back g'
    · simpa [builtFor, giveBack, setPool, hg] using h.back g'
  · simp only [giveBack, setPool]
    rw [List.map_cons, List.nodup_cons, h.mem_built]
    exact ⟨hused, h.nodup⟩
  · intro g'
    simp only [giveBack, setPool]
    rw [List.map_cons, List.mem_cons, h.mem_built, List.mem_append, List.mem_singleton, or_comm]
  · intro g'
    simp only [giveBack, setPool]
    rw [mem_loaded_load, h.mem_loaded, List.mem_append, List.mem_singleton, or_comm]

theorem checkout (h : Settled used r) (htakes : lib.refusal? g = none) :
    ∃ r' loan, r.checkout lib g = (r', .ok loan, if g ∈ used then [] else [.loading g]) ∧
      Settled (used ++ [g]) (r'.giveBack loan) := by
  cases hp : r.pool g with
  | cons p ps =>
    rw [if_pos (h.mem_of_pool hp)]
    exact ⟨_, _, checkout_of_pool hp lib, h.reborrow hp⟩
  | nil =>
    have hused := h.pool_eq_nil_iff.1 hp
    have hloaded : g ∉ r.loaded := mt (h.mem_loaded g).1 hused
    have hevents : (r.load g).2 = [.loading g] := by rw [load, if_neg hloaded]
    rw [if_neg hused, ← hevents]
    exact ⟨_, _, checkout_of_pool_nil hp htakes, h.borrow_new hp⟩

theorem serve (h : Settled used r) (htakes : ∀ g, lib.refusal? g = none) (m : Memory)
    (call : Call) : Settled (used ++ [call.grammar]) (r.serve lib m call).1 := by
  obtain ⟨r', loan, hcheckout, hsettled⟩ := h.checkout (htakes call.grammar)
  rwa [(serve_of_checkout hcheckout m).1]

theorem count_loading_serve (h : Settled used r) (htakes : ∀ g, lib.refusal? g = none)
    (m : Memory) (call : Call) (g : Grammar) :
    ((r.serve lib m call).2.2.map Event.message).count ("Loading " ++ g.name ++ " grammar") =
      if call.grammar = g ∧ g ∉ used then 1 else 0 := by
  obtain ⟨r', loan, hcheckout, -⟩ := h.checkout (htakes call.grammar)
  obtain ⟨-, more, hevents, hnone⟩ := serve_of_checkout hcheckout m
  have hothers : (more.map Event.message).count ("Loading " ++ g.name ++ " grammar") = 0 := by
    rw [List.count_eq_zero, List.mem_map]
    rintro ⟨e, he, htext⟩
    rw [Event.message_eq_loading_iff.1 htext] at he
    exact hnone g he
  rw [hevents, List.map_append, List.count_append, hothers]
  by_cases hused : call.grammar ∈ used
  · rw [if_pos hused, if_neg]
    · rfl
    · rintro ⟨rfl, hnot⟩
      exact hnot hused
  · rw [if_neg hused, List.map_singleton, List.count_singleton]
    simp only [beq_iff_eq, Event.message_eq_loading_iff, Event.loading.injEq, Nat.add_zero]
    refine if_congr ?_ rfl rfl
    constructor
    · rintro rfl
      exact ⟨rfl, hused⟩
    · exact And.left

theorem length_built (h : Settled used r) : r.built.length = used.toFinset.card := by
  have hset : (r.built.map Parser.grammar).toFinset = used.toFinset := by
    ext g
    rw [List.mem_toFinset, List.mem_toFinset, h.mem_built]
  rw [← hset, List.toFinset_card_of_nodup h.nodup, List.length_map]

end Settled

section Calls

variable (htakes : ∀ g, lib.refusal? g = none) (extensions : List (String × Policy))

include htakes

theorem settled_serveAll (calls : List Call) :
    Settled (calls.map Call.grammar) ((ofExtensions extensions).serveAll lib calls).1 := by
  induction calls using List.reverseRecOn with
  | nil => exact Settled.fresh extensions
  | append_singleton calls call ih =>
    rw [serveAll_concat, List.map_append]
    exact ih.serve htakes _ call

theorem count_loading_serveAll (calls : List Call) (g : Grammar) :
    (((ofExtensions extensions).serveAll lib calls).2.2.flatten.map Event.message).count
        ("Loading " ++ g.name ++ " grammar") =
      if g ∈ calls.map Call.grammar then 1 else 0 := by
  induction calls using List.reverseRecOn with
  | nil => rfl
  | append_singleton calls call ih =>
    have hcall := (settled_serveAll htakes extensions calls).count_loading_serve htakes
      ((ofExtensions extensions).serveAll lib calls).2.1 call g
    rw [serveAll_concat, List.flatten_append, List.map_append, List.count_append, ih,
      List.flatten_singleton, serveLast, hcall, List.map_append, List.map_singleton]
    simp only [List.mem_append, List.mem_singleton]
    by_cases hused : g ∈ calls.map Call.grammar
    · rw [if_pos hused, if_neg (fun h => h.2 hused), if_pos (.inl hused)]
    · simp only [hused, not_false_eq_true, and_true, false_or, if_false, Nat.zero_add, eq_comm]

end Calls

theorem length_serveAll (r : Registry) (lib : ParserLibrary) (calls : List Call) :
    (r.serveAll lib calls).2.2.length = calls.length := by
  induction calls using List.reverseRecOn with
  | nil => rfl
  | append_singleton calls call ih => simp [serveAll_concat, ih]

theorem getElem?_serveAll (r : Registry) (lib : ParserLibrary) {calls : List Call} {k : Nat}
    {call : Call} (h : calls[k]? = some call) :
    (r.serveAll lib calls).2.2[k]? = some (r.serveLast lib (calls.take k) call).2.2 := by
  induction calls using List.reverseRecOn with
  | nil => cases h
  | append_singleton calls last ih =>
    have hlength := length_serveAll r lib calls
    have hk := (List.getElem?_eq_some_iff.1 h).1
    rw [List.length_append, List.length_singleton] at hk
    rw [serveAll_concat]
    rcases Nat.lt_or_eq_of_le (Nat.le_of_lt_succ hk) with hlt | rfl
    · rw [List.getElem?_append_left hlt] at h
      rw [List.getElem?_append_left (hlength ▸ hlt), ih h, List.take_append_of_le_length hlt.le]
    · obtain rfl : last = call := by simpa using h
      rw [List.getElem?_append_right hlength.le, hlength, Nat.sub_self, List.take_left]
      rfl

theorem checkout_congr {lib' : ParserLibrary} {g : Grammar} (h : lib.refusal? g = none)
    (h' : lib'.refusal? g = none) (r : Registry) : r.checkout lib g = r.checkout lib' g := by
  cases hp : r.pool g with
  | cons p ps => rw [checkout_of_pool hp, checkout_of_pool hp]
  | nil => rw [checkout_of_pool_nil hp h, checkout_of_pool_nil hp h']

structure Served (calls : List Call) (r : Registry) (log : List (List Event)) : Prop where
  back : ∀ g, (r.pool g).Perm (r.builtFor g)
  built : r.built.length = (calls.map Call.grammar).toFinset.card
  loading : ∀ g, (log.flatten.map Event.message).count ("Loading " ++ g.name ++ " grammar") =
    if g ∈ calls.map Call.grammar then 1 else 0
  first : ∀ (k : Nat) (call : Call), calls[k]? = some call → ∃ events, log[k]? = some events ∧
    ∀ g, (events.map Event.message).count ("Loading " ++ g.name ++ " grammar") =
      if call.grammar = g ∧ g ∉ (calls.take k).map Call.grammar then 1 else 0
  /-- What a parser makes of a text leaves no trace. -/
  alike : ∀ (lib lib' : ParserLibrary) (m m' : Memory) (a b : Call),
    (∀ g, lib.refusal? g = none) → (∀ g, lib'.refusal? g = none) → a.grammar = b.grammar →
      (r.serve lib m a).1 = (r.serve lib' m' b).1

/-- Calls one after the other, on a new registry, leave the books of it in order, so long as parsers
take their grammars. -/
theorem serveAll_served (htakes : ∀ g, lib.refusal? g = none)
    (extensions : List (String × Policy)) (calls : List Call) :
    Served calls ((ofExtensions extensions).serveAll lib calls).1
      ((ofExtensions extensions).serveAll lib calls).2.2 where
  back := (settled_serveAll htakes extensions calls).back
  built := (settled_serveAll htakes extensions calls).length_built
  loading := count_loading_serveAll htakes extensions calls
  first := by
    intro k call hcall
    have hsettled := settled_serveAll htakes extensions (calls.take k)
    exact ⟨_, getElem?_serveAll _ lib hcall, hsettled.count_loading_serve htakes _ call⟩
  alike := by
    intro lib lib' m m' a b h h' hgrammar
    obtain ⟨r', loan, events, hcheckout⟩ :=
      exists_checkout (h a.grammar) ((ofExtensions extensions).serveAll _ calls).1
    have hother := hcheckout
    rw [checkout_congr (h a.grammar) (h' a.grammar), hgrammar] at hother
    rw [(serve_of_checkout hcheckout m).1, (serve_of_checkout hother m').1]

def refusedCalls : List Call :=
  [.parse (.ofLanguage .python) "", .chunk {} (.ofLanguage .java) "A.java" "",
    .parse (.ofLanguage .python) "x"]

theorem serveAll_served_refused :
    let lib := ParserLibrary.ofTable fun _ _ => none
    let served := (ofExtensions []).serveAll lib refusedCalls
    (∀ g, lib.refusal? g = none) ∧ served.1.built.length = 2 ∧
      (served.1.pool .python).Perm [⟨0, .python⟩] ∧ (served.1.pool .java).Perm [⟨1, .java⟩] ∧
      served.2.2 = [[.loading .python], [.loading .java], []] ∧
      (served.2.2.flatten.map Event.message).count
        ("Loading " ++ Grammar.python.name ++ " grammar") = 1 := by
  intro lib served
  have htakes : ∀ g, lib.refusal? g = none := fun _ => rfl
  have hserved : Served refusedCalls served.1 served.2.2 :=
    serveAll_served htakes [] refusedCalls
  exact ⟨htakes, hserved.built.trans (by decide), hserved.back .python, hserved.back .java,
    by decide +kernel, (hserved.loading .python).trans (if_pos (by decide))⟩

end Registry

end CodeChunks
