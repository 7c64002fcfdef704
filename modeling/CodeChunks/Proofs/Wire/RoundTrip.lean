import CodeChunks.Wire.Batch

namespace CodeChunks

namespace Json

variable {α : Type}

theorem nat?_nat {n : Nat} (h : n < Text.wordLimit) : (Json.nat n).nat? = some n := if_pos h

@[simp] theorem str?_str (s : String) : (Json.str s).str? = some s := rfl

@[simp] theorem bool?_bool (b : Bool) : (Json.bool b).bool? = some b := rfl

theorem list?_ofList {toJson : α → Json} {item? : Json → Option α} {as : List α}
    (hitem : ∀ a ∈ as, item? (toJson a) = some a) :
    (ofList toJson as).list? item? = some as := by
  simp only [ofList, list?]
  induction as with
  | nil => rfl
  | cons a as ih =>
    have hhead := hitem a (by simp)
    have htail := ih fun b hb => hitem b (by simp [hb])
    simp [hhead, htail]

@[simp] theorem list?_strings (ss : List String) : (ofList .str ss).list? str? = some ss :=
  list?_ofList fun s _ => str?_str s

theorem nullable?_of_ne_null {part? : Json → Option α} {j : Json} (h : j ≠ .null) :
    nullable? part? j = (part? j).map some := by
  cases j with
  | null => exact absurd rfl h
  | _ => rfl

theorem nullable?_ofOption {toJson : α → Json} {part? : Json → Option α} {o : Option α}
    (hpart : ∀ a ∈ o, part? (toJson a) = some a) (hnull : ∀ a, toJson a ≠ .null) :
    nullable? part? (ofOption toJson o) = some o := by
  cases o with
  | none => rfl
  | some a =>
    rw [ofOption, nullable?_of_ne_null (hnull a), hpart a rfl]
    rfl

@[simp] theorem nullable?_ofOption_str (o : Option String) :
    nullable? str? (ofOption .str o) = some o :=
  nullable?_ofOption (fun s _ => str?_str s) nofun

@[simp] theorem fields?_obj (count : Nat) (members : List (String × Json)) :
    (Json.obj members).fields? count = some (.named members) := rfl

namespace Fields

@[simp] theorem get?_named_nil (index : Nat) (name : String) :
    (Fields.named []).get? index name = none := rfl

@[simp] theorem get?_named_cons (index : Nat) (name key : String) (j : Json)
    (members : List (String × Json)) :
    (Fields.named ((key, j) :: members)).get? index name =
      if key = name then some j else (Fields.named members).get? index name := by
  by_cases h : key = name <;> simp [get?, h]

@[simp] theorem get?_named_present_append (index : Nat) (name key : String) (o : Option Json)
    (members : List (String × Json)) :
    (Fields.named (present key o ++ members)).get? index name =
      if key = name then o.or ((Fields.named members).get? index name)
      else (Fields.named members).get? index name := by
  cases o with
  | none => simp [present]
  | some j => simp [present]

@[simp] theorem get?_named_present (index : Nat) (name key : String) (o : Option Json) :
    (Fields.named (present key o)).get? index name = if key = name then o else none := by
  simpa using get?_named_present_append index name key o []

section Parts

variable {f : Fields} {index : Nat} {name : String} {toJson : α → Json} {part? : Json → Option α}

theorem required_of_get? {j : Json} (hget : f.get? index name = some j) :
    f.required index name part? = part? j := by
  simp only [required, hget, Option.bind_some]

theorem optional_of_get? {j : Json} (hget : f.get? index name = some j) :
    f.optional index name part? = nullable? part? j := by
  simp only [optional, hget]

theorem withDefault_of_get? {j : Json} {default : α} (hget : f.get? index name = some j) :
    f.withDefault index name part? default = part? j := by
  simp only [withDefault, hget]

theorem withDefault_absent {o : Option α} (hget : f.get? index name = o.map toJson)
    (hpart : ∀ a ∈ o, part? (toJson a) = some a) (hnull : ∀ a, toJson a ≠ .null) :
    f.withDefault index name (nullable? part?) none = some o := by
  cases o with
  | none => simp only [withDefault, hget, Option.map_none]
  | some a =>
    simp only [withDefault, hget, Option.map_some, nullable?_of_ne_null (hnull a), hpart a rfl]

theorem withDefault_absent_str {o : Option String} (hget : f.get? index name = o.map .str) :
    f.withDefault index name (nullable? str?) none = some o :=
  withDefault_absent hget (fun s _ => str?_str s) nofun

theorem withDefault_empty_str {l : List String}
    (hget : f.get? index name = if l.isEmpty then none else some (.ofList .str l)) :
    f.withDefault index name (list? str?) [] = some l := by
  cases l with
  | nil => simp only [withDefault, hget, List.isEmpty_nil, if_true]
  | cons s l =>
    simp only [withDefault, hget, List.isEmpty_cons, Bool.false_eq_true, if_false]
    exact list?_strings (s :: l)

end Parts

end Fields

end Json

open Json Json.Fields

@[simp] theorem Language.ofJson?_toJson (l : Language) : Language.ofJson? l.toJson = some l := by
  cases l <;> decide

@[simp] theorem ChunkType.ofJson?_toJson (t : ChunkType) :
    ChunkType.ofJson? t.toJson = some t := by
  cases t <;> decide

@[simp] theorem SpecifierKind.ofJson?_toJson (k : SpecifierKind) :
    SpecifierKind.ofJson? k.toJson = some k := by
  cases k <;> decide

theorem Specifier.ofJson?_toJson (s : Specifier) : Specifier.ofJson? s.toJson = some s := by
  simp only [ofJson?, toJson, fields?_obj, Option.bind_eq_bind, Option.bind_some]
  rw [required_of_get? (j := s.kind.toJson) (by simp),
    required_of_get? (j := .str s.binding) (by simp),
    optional_of_get? (j := .ofOption .str s.imported) (by simp)]
  simp

theorem Import.ofJson?_toJson (i : Import) : Import.ofJson? i.toJson = some i := by
  simp only [ofJson?, toJson, fields?_obj, Option.bind_eq_bind, Option.bind_some]
  rw [required_of_get? (j := .str i.source) (by simp),
    required_of_get? (j := .ofList Specifier.toJson i.specifiers) (by simp),
    list?_ofList fun s _ => s.ofJson?_toJson]
  simp

theorem Param.ofJson?_toJson (p : Param) : Param.ofJson? p.toJson = some p := by
  simp only [ofJson?, toJson, fields?_obj, Option.bind_eq_bind, Option.bind_some]
  rw [required_of_get? (j := .str p.name) (by simp),
    withDefault_absent_str (o := p.annotation) (by simp)]
  simp

theorem Details.ofJson?_toJson (d : Details) : Details.ofJson? d.toJson = some d := by
  simp only [ofJson?, toJson, fields?_obj, Option.bind_eq_bind, Option.bind_some,
    List.cons_append, List.append_assoc, List.nil_append]
  rw [withDefault_of_get? (j := .ofList Param.toJson d.params) (by simp),
    list?_ofList fun p _ => p.ofJson?_toJson,
    withDefault_absent_str (o := d.returnType) (by simp),
    withDefault_of_get? (j := .bool d.isAsync) (by simp),
    withDefault_of_get? (j := .bool d.isGenerator) (by simp),
    withDefault_empty_str (l := d.decorators) (by simp),
    withDefault_absent_str (o := d.documentation) (by simp)]
  simp

def Chunk.Fits (c : Chunk) : Prop :=
  c.metadata.lineStart < Text.wordLimit ∧ c.metadata.lineEnd < Text.wordLimit

theorem Metadata.ofJson?_toJson {m : Metadata} (hstart : m.lineStart < Text.wordLimit)
    (hend : m.lineEnd < Text.wordLimit) : Metadata.ofJson? m.toJson = some m := by
  simp only [ofJson?, toJson, fields?_obj, Option.bind_eq_bind, Option.bind_some,
    List.cons_append, List.nil_append]
  rw [required_of_get? (j := .str m.filePath) (by simp),
    required_of_get? (j := m.language.toJson) (by simp),
    required_of_get? (j := m.type.toJson) (by simp),
    required_of_get? (j := .str m.name) (by simp),
    required_of_get? (j := .nat m.lineStart) (by simp), nat?_nat hstart,
    required_of_get? (j := .nat m.lineEnd) (by simp), nat?_nat hend,
    withDefault_of_get? (j := .ofList Import.toJson m.imports) (by simp),
    list?_ofList fun i _ => i.ofJson?_toJson,
    withDefault_absent (o := m.details) (by simp) (fun d _ => d.ofJson?_toJson) nofun]
  simp

theorem Chunk.ofJson?_toJson {c : Chunk} (h : c.Fits) : Chunk.ofJson? c.toJson = some c := by
  simp only [ofJson?, toJson, fields?_obj, Option.bind_eq_bind, Option.bind_some]
  rw [required_of_get? (j := .str c.id) (by simp),
    required_of_get? (j := .str c.content) (by simp),
    required_of_get? (j := c.metadata.toJson) (by simp), Metadata.ofJson?_toJson h.1 h.2]
  simp

theorem Entries.ofJson?_toJson {α : Type} {toJson : α → Json} {item? : Json → Option α}
    {e : Entries α} (hitem : ∀ x ∈ e.toList, item? (toJson x.2) = some x.2) :
    Entries.ofJson? item? (e.toJson toJson) = some e := by
  have hentries : (Json.obj (e.toList.map fun x => (x.1, toJson x.2))).entries? item? =
      some e.toList := by
    generalize e.toList = es at hitem
    simp only [Json.entries?]
    induction es with
    | nil => rfl
    | cons x es ih =>
      have hhead := hitem x (by simp)
      have htail := ih fun y hy => hitem y (by simp [hy])
      simp [hhead, htail]
  rw [Entries.ofJson?, Entries.toJson, hentries, Option.map_some, Entries.ofList_toList]

theorem Config.ofJson?_toJson (c : Config) : Config.ofJson? c.toJson = some c := by
  simp only [ofJson?, toJson, fields?_obj, Option.bind_eq_bind, Option.bind_some]
  rw [withDefault_of_get? (j := .bool c.includeImports) (by simp),
    withDefault_of_get? (j := .bool c.includeDetails) (by simp),
    withDefault_of_get? (j := .ofList .str c.supportedLanguages) (by simp),
    withDefault_of_get? (j := c.extraExtensions.toJson .str) (by simp),
    Entries.ofJson?_toJson fun x _ => str?_str x.2]
  simp

namespace Batch

structure Settings.Fits (s : Settings) : Prop where
  concurrency : ∀ n ∈ s.concurrency, n < Text.wordLimit
  maxFileBytes : s.maxFileBytes < Text.wordLimit

theorem Settings.ofJson?_toJson {s : Settings} (h : s.Fits) :
    Settings.ofJson? s.toJson = some s := by
  simp only [ofJson?, toJson, fields?_obj, Option.bind_eq_bind, Option.bind_some]
  rw [withDefault_of_get? (j := s.chunker.toJson) (by simp), Config.ofJson?_toJson,
    withDefault_of_get? (j := .ofOption .nat s.concurrency) (by simp),
    nullable?_ofOption (fun n hn => nat?_nat (h.concurrency n hn)) nofun,
    withDefault_of_get? (j := .nat s.maxFileBytes) (by simp), nat?_nat h.maxFileBytes]
  simp

structure Stats.Fits (s : Stats) : Prop where
  files : s.files < Text.wordLimit
  skipped : s.skipped < Text.wordLimit
  failed : s.failed < Text.wordLimit
  chunks : s.chunks < Text.wordLimit
  totalLines : s.totalLines < Text.wordLimit
  timeMs : s.timeMs < Text.wordLimit
  languages : ∀ x ∈ s.languages.toList, x.2 < Text.wordLimit

theorem Stats.ofJson?_toJson {s : Stats} (h : s.Fits) : Stats.ofJson? s.toJson = some s := by
  simp only [ofJson?, toJson, fields?_obj, Option.bind_eq_bind, Option.bind_some]
  rw [required_of_get? (j := .nat s.files) (by simp), nat?_nat h.files,
    required_of_get? (j := .nat s.skipped) (by simp), nat?_nat h.skipped,
    required_of_get? (j := .nat s.failed) (by simp), nat?_nat h.failed,
    required_of_get? (j := .nat s.chunks) (by simp), nat?_nat h.chunks,
    required_of_get? (j := .nat s.totalLines) (by simp), nat?_nat h.totalLines,
    required_of_get? (j := .nat s.timeMs) (by simp), nat?_nat h.timeMs,
    required_of_get? (j := s.languages.toJson .nat) (by simp),
    Entries.ofJson?_toJson fun x hx => nat?_nat (h.languages x hx),
    required_of_get? (j := .ofList .str s.errors) (by simp)]
  simp

def FileChunks.Fits (f : FileChunks) : Prop := ∀ c ∈ f.chunks, c.Fits

theorem FileChunks.ofJson?_toJson {f : FileChunks} (h : f.Fits) :
    FileChunks.ofJson? f.toJson = some f := by
  simp only [ofJson?, toJson, fields?_obj, Option.bind_eq_bind, Option.bind_some]
  rw [required_of_get? (j := .str f.filePath) (by simp),
    optional_of_get? (j := .ofOption Language.toJson f.language) (by simp),
    nullable?_ofOption (fun l _ => l.ofJson?_toJson) nofun,
    required_of_get? (j := .ofList Chunk.toJson f.chunks) (by simp),
    list?_ofList fun c hc => Chunk.ofJson?_toJson (h c hc)]
  simp

structure Output.Fits (o : Output) : Prop where
  files : ∀ f ∈ o.files, f.Fits
  stats : o.stats.Fits

theorem Output.ofJson?_toJson {o : Output} (h : o.Fits) : Output.ofJson? o.toJson = some o := by
  simp only [ofJson?, toJson, fields?_obj, Option.bind_eq_bind, Option.bind_some]
  rw [required_of_get? (j := .ofList FileChunks.toJson o.files) (by simp),
    list?_ofList fun f hf => FileChunks.ofJson?_toJson (h.files f hf),
    required_of_get? (j := o.stats.toJson) (by simp), Stats.ofJson?_toJson h.stats]
  simp

end Batch

end CodeChunks
