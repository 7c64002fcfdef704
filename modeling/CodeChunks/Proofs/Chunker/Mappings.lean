import CodeChunks.Proofs.Chunker.Resolution
import CodeChunks.Proofs.Path.Extension

namespace CodeChunks

def Entries.erase {α : Type} (e : Entries α) (key : String) : Entries α :=
  ⟨e.toList.filter (·.1 != key), e.sorted.filter _⟩

theorem Entries.mem_erase {α : Type} {e : Entries α} {key : String} {x : String × α} :
    x ∈ (e.erase key).toList ↔ x ∈ e.toList ∧ x.1 ≠ key := by
  simp [erase]

namespace Config

variable {c : Config} {key ext : String} {path : OsText} {entry : String × String}

def without (c : Config) (key : String) : Config :=
  { c with extraExtensions := c.extraExtensions.erase key }

/-- A file called `x` with the extension of the entry has the language of the entry. -/
def Honours (c : Config) (entry : String × String) : Prop :=
  ∃ chunker l, Chunker.new c = .ok chunker ∧ Language.ofName? entry.2 = some l ∧
    chunker.resolve ("x." ++ withoutDots entry.1 : String) = .ok (.ofLanguage l)

/-- No path comes out differently for the entry. -/
def Ignores (c : Config) (entry : String × String) : Prop :=
  ∃ chunker other, Chunker.new c = .ok chunker ∧ Chunker.new (c.without entry.1) = .ok other ∧
    ∀ path, chunker.resolve path = other.resolve path

theorem validate_without (h : c.validate = .ok ()) (key : String) :
    (c.without key).validate = .ok () := by
  obtain ⟨hsupported, hmapping⟩ := validate_eq_ok_iff.1 h
  refine validate_eq_ok_iff.2 ⟨hsupported, ?_⟩
  intro entry hentry
  exact hmapping entry (Entries.mem_erase.1 hentry).1

theorem Governs.without (h : c.Governs ext entry) (hkey : ¬StandsFor key ext) :
    (c.without key).Governs ext entry where
  mem := by
    refine Entries.mem_erase.2 ⟨h.mem, ?_⟩
    rintro rfl
    exact hkey h.stands
  stands := h.stands
  greatest := fun other hother => h.greatest other (Entries.mem_erase.1 hother).1

theorem Selects.without {found : Option Policy} (h : c.Selects ext found)
    (hkey : ¬StandsFor key ext) : (c.without key).Selects ext found := by
  cases h with
  | mapped hgoverns hname => exact .mapped (hgoverns.without hkey) hname
  | builtin hfree => exact .builtin fun other hother => hfree other (Entries.mem_erase.1 hother).1

theorem Resolves.without {answer : Except ChunkError Policy} (h : c.Resolves path answer)
    (hkey : ∀ ext : String, Path.extension? path = some (.ofString ext) →
      ¬StandsFor key (Text.lowercase ext)) : (c.without key).Resolves path answer := by
  cases h with
  | bare habsent => exact .bare habsent
  | unknown hext hselects => exact .unknown hext (hselects.without (hkey _ hext))
  | barred hext hselects hfiltered hunnamed =>
    exact .barred hext (hselects.without (hkey _ hext)) hfiltered hunnamed
  | found hext hselects hallowed =>
    exact .found hext (hselects.without (hkey _ hext)) hallowed

theorem isExtension_lowercase_iff (s : String) :
    Path.IsExtension (Text.lowercase s) ↔ Path.IsExtension s := by
  rw [Path.IsExtension, Path.IsExtension, Text.mem_lowercase_iff (by decide),
    Text.mem_lowercase_iff (by decide)]

theorem honours_of_isExtension (h : c.validate = .ok ()) (hentry : entry ∈ c.extraExtensions.toList)
    (halone : ∀ other ∈ c.extraExtensions.toList,
      normalize other.1 = normalize entry.1 → other = entry)
    (hall : c.supportedLanguages = []) (hext : Path.IsExtension (withoutDots entry.1)) :
    c.Honours entry := by
  obtain ⟨l, hl⟩ := exists_language_of_mem h hentry
  refine ⟨_, l, Chunker.new_of_validate h, hl, ?_⟩
  have hpath : Path.extension? ("x." ++ withoutDots entry.1 : String) =
      some (.ofString (withoutDots entry.1)) := by
    rw [show "x." = "x" ++ "." by decide]
    exact Path.extension?_append_dot (by decide) hext
  have hgoverns : c.Governs (normalize entry.1) entry := by
    refine ⟨hentry, standsFor_iff.2 rfl, ?_⟩
    intro other hother hsame
    obtain rfl := halone other hother (standsFor_iff.1 hsame)
    exact String.le_refl _
  exact Chunker.resolve_of_resolves h (.found hpath (.mapped hgoverns hl) (.inl hall))

theorem ignores_of_not_isExtension (h : c.validate = .ok ())
    (hext : ¬Path.IsExtension (withoutDots entry.1)) : c.Ignores entry := by
  have hwithout := validate_without h entry.1
  refine ⟨_, _, Chunker.new_of_validate h, Chunker.new_of_validate hwithout, fun path => ?_⟩
  obtain ⟨answer, hresolves⟩ := Chunker.exists_resolves h path
  have hkey : ∀ ext : String, Path.extension? path = some (.ofString ext) →
      ¬StandsFor entry.1 (Text.lowercase ext) := by
    intro ext hpath hstands
    have hlower := (isExtension_lowercase_iff ext).2 (Path.isExtension_of_extension? hpath)
    rw [← standsFor_iff.1 hstands, normalize, isExtension_lowercase_iff] at hlower
    exact hext hlower
  rw [Chunker.resolve_of_resolves h hresolves,
    Chunker.resolve_of_resolves hwithout (hresolves.without hkey)]

/-- An extra extension takes hold of the files it names if it holds no dot, those in front apart,
and no slash. Otherwise it is accepted all the same and takes hold of nothing. -/
theorem honours_or_ignores (h : c.validate = .ok ()) (hentry : entry ∈ c.extraExtensions.toList) :
    (Path.IsExtension (withoutDots entry.1) →
      (∀ other ∈ c.extraExtensions.toList, normalize other.1 = normalize entry.1 → other = entry) →
      c.supportedLanguages = [] → c.Honours entry) ∧
    (¬Path.IsExtension (withoutDots entry.1) → c.Ignores entry) := by
  constructor
  · intro hext halone hall
    exact honours_of_isExtension h hentry halone hall hext
  · intro hext
    exact ignores_of_not_isExtension h hext

def dotted : Config := { extraExtensions := .ofList [("d.ts", "python"), ("..Es6", "JavaScript")] }

theorem honours_or_ignores_dotted :
    dotted.validate = .ok () ∧ ("..Es6", "JavaScript") ∈ dotted.extraExtensions.toList ∧
      ("d.ts", "python") ∈ dotted.extraExtensions.toList ∧
      dotted.Honours ("..Es6", "JavaScript") ∧ dotted.Ignores ("d.ts", "python") := by
  have hvalid : dotted.validate = .ok () := by decide +kernel
  have hes : ("..Es6", "JavaScript") ∈ dotted.extraExtensions.toList := by decide +kernel
  have hts : ("d.ts", "python") ∈ dotted.extraExtensions.toList := by decide +kernel
  refine ⟨hvalid, hes, hts, ?_, ?_⟩
  · exact (honours_or_ignores hvalid hes).1 (by decide +kernel) (by decide +kernel) rfl
  · exact (honours_or_ignores hvalid hts).2 (by decide +kernel)

/-- An extension with a dot inside is accepted, and the file it names goes by what stands behind the
last dot. -/
theorem not_honours_inner_dot :
    dotted.validate = .ok () ∧ ("d.ts", "python") ∈ dotted.extraExtensions.toList ∧
      (∀ other ∈ dotted.extraExtensions.toList,
        normalize other.1 = normalize "d.ts" → other = ("d.ts", "python")) ∧
      dotted.supportedLanguages = [] ∧ ¬dotted.Honours ("d.ts", "python") ∧
      Chunker.resolve ⟨dotted, dotted.registry⟩ "x.d.ts" = .ok (.ofLanguage .typescript) := by
  have hvalid : dotted.validate = .ok () := by decide +kernel
  have hresolve :
      Chunker.resolve ⟨dotted, dotted.registry⟩ "x.d.ts" = .ok (.ofLanguage .typescript) := by
    decide +kernel
  refine ⟨hvalid, by decide +kernel, by decide +kernel, rfl, ?_, hresolve⟩
  rintro ⟨chunker, l, hnew, hname, hhonoured⟩
  cases (Chunker.new_of_validate hvalid).symm.trans hnew
  obtain rfl : l = .python := by cases hname; rfl
  have hfile : "x." ++ withoutDots "d.ts" = "x.d.ts" := by decide +kernel
  rw [hfile, hresolve] at hhonoured
  exact absurd hhonoured (by decide)

end Config

end CodeChunks
