import CodeChunks.Chunker
import CodeChunks.Proofs.Entries
import CodeChunks.Proofs.OsText
import CodeChunks.Proofs.Text.Lowercase
import Mathlib.Data.List.Find
import Mathlib.Data.List.Forall2
import Mathlib.Data.List.TakeWhile

namespace CodeChunks

namespace Config

variable {c : Config} {key ext : String} {path : OsText}

/-- A key stands for what follows the dots in front of it, in lower case. -/
def StandsFor (key ext : String) : Prop :=
  ∃ dots rest : String, key = dots ++ rest ∧ (∀ d ∈ dots.toList, d = '.') ∧
    rest.toList.head? ≠ some '.' ∧ ext = Text.lowercase rest

/-- Of the keys that stand for an extension, this entry has the greatest. -/
structure Governs (c : Config) (ext : String) (entry : String × String) : Prop where
  mem : entry ∈ c.extraExtensions.toList
  stands : StandsFor entry.1 ext
  greatest : ∀ other ∈ c.extraExtensions.toList, StandsFor other.1 ext → other.1 ≤ entry.1

inductive Selects (c : Config) (ext : String) : Option Policy → Prop
  | mapped {entry : String × String} {l : Language} (governs : c.Governs ext entry)
      (named : Language.ofName? entry.2 = some l) : Selects c ext (some (.ofLanguage l))
  | builtin (free : ∀ entry ∈ c.extraExtensions.toList, ¬StandsFor entry.1 ext) :
      Selects c ext (Policy.builtin? ext)

/-- What comes of a path. An extension that is not UTF-8 counts as absent: there are no characters
to look up or to show. -/
inductive Resolves (c : Config) (path : OsText) : Except ChunkError Policy → Prop
  | bare (absent : ∀ ext : String, Path.extension? path ≠ some (.ofString ext)) :
      Resolves c path (.error (.unsupportedLanguage ".<none>"))
  | unknown {ext : String} (extension : Path.extension? path = some (.ofString ext))
      (selects : c.Selects (Text.lowercase ext) none) :
      Resolves c path (.error (.unsupportedLanguage ("." ++ ext)))
  | barred {ext : String} {policy : Policy}
      (extension : Path.extension? path = some (.ofString ext))
      (selects : c.Selects (Text.lowercase ext) (some policy))
      (filtered : c.supportedLanguages ≠ [])
      (unnamed : ∀ name ∈ c.supportedLanguages, Language.ofName? name ≠ some policy.language) :
      Resolves c path (.error (.unsupportedLanguage policy.language.name))
  | found {ext : String} {policy : Policy}
      (extension : Path.extension? path = some (.ofString ext))
      (selects : c.Selects (Text.lowercase ext) (some policy))
      (allowed : c.supportedLanguages = [] ∨
        ∃ name ∈ c.supportedLanguages, Language.ofName? name = some policy.language) :
      Resolves c path (.ok policy)

theorem withoutDots_eq_iff {rest : String} :
    withoutDots key = rest ↔ ∃ dots : String, key = dots ++ rest ∧ (∀ d ∈ dots.toList, d = '.') ∧
      rest.toList.head? ≠ some '.' := by
  constructor
  · rintro rfl
    refine ⟨String.ofList (key.toList.takeWhile (· == '.')), ?_, ?_, ?_⟩
    · rw [withoutDots, ← String.ofList_append, List.takeWhile_append_dropWhile,
        String.ofList_toList]
    · intro d hd
      rw [String.toList_ofList] at hd
      have hdot := List.mem_takeWhile_imp hd
      exact beq_iff_eq.1 hdot
    · intro hhead
      have hfirst := List.head?_dropWhile_not (· == '.') key.toList
      rw [withoutDots, String.toList_ofList] at hhead
      simp [hhead] at hfirst
  · rintro ⟨dots, rfl, hdots, hhead⟩
    have hrest : rest.toList.dropWhile (· == '.') = rest.toList := by
      cases hrest : rest.toList with
      | nil => rfl
      | cons d ds =>
        rw [hrest, List.head?_cons, ne_eq, Option.some.injEq] at hhead
        exact List.dropWhile_cons_of_neg (by simpa using hhead)
    rw [withoutDots, String.toList_append, List.dropWhile_append_of_pos (by simpa using hdots),
      hrest, String.ofList_toList]

theorem standsFor_iff : StandsFor key ext ↔ normalize key = ext := by
  constructor
  · rintro ⟨dots, rest, hkey, hdots, hhead, rfl⟩
    rw [normalize, withoutDots_eq_iff.2 ⟨dots, hkey, hdots, hhead⟩]
  · rintro rfl
    obtain ⟨dots, hkey, hdots, hhead⟩ := withoutDots_eq_iff.1 (rfl : withoutDots key = _)
    exact ⟨dots, _, hkey, hdots, hhead, rfl⟩

instance (key ext : String) : Decidable (StandsFor key ext) :=
  decidable_of_iff _ standsFor_iff.symm

theorem allows_eq_false_iff {l : Language} :
    c.allows l = false ↔ c.supportedLanguages ≠ [] ∧
      ∀ name ∈ c.supportedLanguages, Language.ofName? name ≠ some l := by
  simp [Config.allows]

theorem allows_iff {l : Language} :
    c.allows l ↔ c.supportedLanguages = [] ∨
      ∃ name ∈ c.supportedLanguages, Language.ofName? name = some l := by
  simp [Config.allows]

theorem validate_eq_ok_iff :
    c.validate = .ok () ↔ (∀ name ∈ c.supportedLanguages, supportedFault? name = none) ∧
      ∀ entry ∈ c.extraExtensions.toList, mappingFault? entry = none := by
  rw [← List.findSome?_eq_none_iff, ← List.findSome?_eq_none_iff, ← Option.or_eq_none_iff, ← fault?,
    validate]
  cases c.fault? <;> simp

theorem exists_language_of_mem (h : c.validate = .ok ()) {entry : String × String}
    (hentry : entry ∈ c.extraExtensions.toList) : ∃ l, Language.ofName? entry.2 = some l := by
  have hfault := (validate_eq_ok_iff.1 h).2 entry hentry
  cases hname : Language.ofName? entry.2 with
  | some l => exact ⟨l, rfl⟩
  | none =>
    by_cases hempty : withoutDots entry.1 = "" <;> simp [mappingFault?, hname, hempty] at hfault

theorem override?_of_name {entry : String × String} {l : Language}
    (h : Language.ofName? entry.2 = some l) :
    override? entry = some (normalize entry.1, .ofLanguage l) := by
  rw [override?, h]
  rfl

theorem registry_overrides (c : Config) : c.registry.overrides = c.overrides := by
  rw [registry, Registry.ofExtensions]
  refine (List.map_congr_left ?_).trans (List.map_id c.overrides)
  intro o ho
  obtain ⟨entry, -, hentry⟩ := List.mem_filterMap.1 ho
  obtain ⟨l, -, rfl⟩ := Option.map_eq_some_iff.1 hentry
  simp [normalize]

theorem forall₂_overrides (h : c.validate = .ok ()) :
    List.Forall₂ (fun entry o => StandsFor entry.1 o.1 ∧
        ∃ l, Language.ofName? entry.2 = some l ∧ o.2 = Policy.ofLanguage l)
      c.extraExtensions.toList c.overrides := by
  have hnamed : ∀ entry ∈ c.extraExtensions.toList, ∃ l, Language.ofName? entry.2 = some l :=
    fun _ => exists_language_of_mem h
  rw [overrides]
  revert hnamed
  induction c.extraExtensions.toList with
  | nil => exact fun _ => .nil
  | cons entry entries ih =>
    intro hnamed
    obtain ⟨l, hl⟩ := hnamed entry (by simp)
    rw [List.filterMap_cons_some (override?_of_name hl)]
    exact .cons ⟨standsFor_iff.2 rfl, l, hl, rfl⟩
      (ih fun entry hentry => hnamed entry (by simp [hentry]))

theorem governs_iff {entry : String × String} :
    c.extraExtensions.toList.reverse.find? (normalize ·.1 == ext) = some entry ↔
      c.Governs ext entry := by
  rw [Entries.find?_reverse_eq_some_iff]
  simp only [beq_iff_eq, ← standsFor_iff]
  exact ⟨fun ⟨h₁, h₂, h₃⟩ => ⟨h₁, h₂, h₃⟩, fun ⟨h₁, h₂, h₃⟩ => ⟨h₁, h₂, h₃⟩⟩

theorem override?_eq (h : c.validate = .ok ()) (ext : String) :
    c.registry.override? ext =
      (c.extraExtensions.toList.reverse.find? (normalize ·.1 == ext)).bind fun entry =>
        (Language.ofName? entry.2).map Policy.ofLanguage := by
  have hfind : c.extraExtensions.toList.reverse.find?
        (fun entry => (override? entry).any (·.1 == ext)) =
      c.extraExtensions.toList.reverse.find? (normalize ·.1 == ext) := by
    apply List.find?_congr
    intro entry hentry
    obtain ⟨l, hl⟩ := exists_language_of_mem h (List.mem_reverse.1 hentry)
    rw [override?_of_name hl]
    rfl
  have hpolicy : Option.map Prod.snd ∘ override? =
      fun entry => (Language.ofName? entry.2).map Policy.ofLanguage := by
    funext entry
    simp [override?, Function.comp_def]
  rw [Registry.override?, registry_overrides, overrides, ← List.filterMap_reverse,
    List.find?_filterMap, hfind, Option.map_bind]
  exact congrArg _ hpolicy

theorem resolveExtension?_eq (c : Config) (ext : String) :
    c.registry.resolveExtension? ext =
      (c.registry.override? (Text.lowercase ext)).or (Policy.builtin? (Text.lowercase ext)) := by
  simp [Registry.resolveExtension?, Policy.ofExtension?]

theorem selects_iff (h : c.validate = .ok ()) (ext : String) {found : Option Policy} :
    c.Selects (Text.lowercase ext) found ↔ found = c.registry.resolveExtension? ext := by
  rw [resolveExtension?_eq, override?_eq h]
  cases hfind : c.extraExtensions.toList.reverse.find? (normalize ·.1 == Text.lowercase ext) with
  | some entry =>
    have hgoverns := governs_iff.1 hfind
    obtain ⟨l, hl⟩ := exists_language_of_mem h hgoverns.mem
    simp only [Option.bind_some, hl, Option.map_some, Option.some_or]
    constructor
    · intro hselects
      cases hselects with
      | mapped hother hname =>
        cases hfind.symm.trans (governs_iff.2 hother)
        cases hl.symm.trans hname
        rfl
      | builtin hfree => exact absurd hgoverns.stands (hfree entry hgoverns.mem)
    · rintro rfl
      exact .mapped hgoverns hl
  | none =>
    have hfree : ∀ entry ∈ c.extraExtensions.toList,
        ¬StandsFor entry.1 (Text.lowercase ext) := by
      simpa [standsFor_iff] using hfind
    simp only [Option.bind_none, Option.none_or]
    constructor
    · intro hselects
      cases hselects with
      | mapped hgoverns => exact absurd hgoverns.stands (hfree _ hgoverns.mem)
      | builtin => rfl
    · rintro rfl
      exact .builtin hfree

end Config

namespace Chunker

variable {c : Chunker} {config : Config} {path : OsText}

theorem new_of_validate (h : config.validate = .ok ()) :
    Chunker.new config = .ok ⟨config, config.registry⟩ := by
  rw [Chunker.new, h]
  rfl

theorem resolve_of_none (h : c.registry.resolve? path = none) :
    c.resolve path =
      .error (.unsupportedLanguage
        ("." ++ ((Path.extension? path).bind OsText.text?).getD "<none>")) := by
  unfold resolve
  rw [h]

theorem resolve_of_some {policy : Policy} (h : c.registry.resolve? path = some policy) :
    c.resolve path = if c.config.allows policy.language then .ok policy
      else .error (.unsupportedLanguage policy.language.name) := by
  unfold resolve
  rw [h]

theorem resolve?_of_selects (h : config.validate = .ok ()) {ext : String}
    {found : Option Policy} (hext : Path.extension? path = some (.ofString ext))
    (hselects : config.Selects (Text.lowercase ext) found) :
    config.registry.resolve? path = found := by
  rw [Registry.resolve?, hext, Option.bind_some, OsText.text?_ofString, Option.bind_some]
  exact ((Config.selects_iff h ext).1 hselects).symm

theorem resolve_of_text_none (h : (Path.extension? path).bind OsText.text? = none) :
    c.resolve path = .error (.unsupportedLanguage ".<none>") := by
  rw [resolve_of_none (by rw [Registry.resolve?, h]; rfl), h]
  rfl

theorem resolve_of_resolves (h : config.validate = .ok ()) {answer : Except ChunkError Policy}
    (hresolves : config.Resolves path answer) :
    Chunker.resolve ⟨config, config.registry⟩ path = answer := by
  cases hresolves with
  | bare habsent => exact resolve_of_text_none (OsText.bind_text?_eq_none_iff.2 habsent)
  | unknown hext hselects =>
    have hfound := resolve?_of_selects h hext hselects
    rw [resolve_of_none (c := ⟨config, config.registry⟩) hfound, hext, Option.bind_some,
      OsText.text?_ofString]
    rfl
  | barred hext hselects hfiltered hunnamed =>
    have hfound := resolve?_of_selects h hext hselects
    have hallows := Config.allows_eq_false_iff.2 ⟨hfiltered, hunnamed⟩
    rw [resolve_of_some (c := ⟨config, config.registry⟩) hfound, if_neg (by simp [hallows])]
  | found hext hselects hallowed =>
    have hfound := resolve?_of_selects h hext hselects
    rw [resolve_of_some (c := ⟨config, config.registry⟩) hfound, if_pos]
    exact Config.allows_iff.2 hallowed

theorem exists_resolves (h : config.validate = .ok ()) (path : OsText) :
    ∃ answer, config.Resolves path answer := by
  cases htext : (Path.extension? path).bind OsText.text? with
  | none => exact ⟨_, .bare (OsText.bind_text?_eq_none_iff.1 htext)⟩
  | some ext =>
    have hext := OsText.bind_text?_eq_some_iff.1 htext
    have hselects := (Config.selects_iff h ext).2 rfl
    cases hfound : config.registry.resolveExtension? ext with
    | none => exact ⟨_, .unknown hext (hfound ▸ hselects)⟩
    | some policy =>
      rw [hfound] at hselects
      cases hallows : config.allows policy.language with
      | true => exact ⟨_, .found hext hselects (Config.allows_iff.1 hallows)⟩
      | false =>
        obtain ⟨hfiltered, hunnamed⟩ := Config.allows_eq_false_iff.1 hallows
        exact ⟨_, .barred hext hselects hfiltered hunnamed⟩

theorem resolves_iff (h : config.validate = .ok ()) {answer : Except ChunkError Policy} :
    config.Resolves path answer ↔
      Chunker.resolve ⟨config, config.registry⟩ path = answer := by
  constructor
  · exact resolve_of_resolves h
  · rintro rfl
    obtain ⟨answer, hresolves⟩ := exists_resolves h path
    rwa [resolve_of_resolves h hresolves]

def colliding : Config :=
  { supportedLanguages := ["Java"]
    extraExtensions := .ofList [(".TS", "python"), ("..Ts", "python"), (".Ts", "java")] }

end Chunker

end CodeChunks
