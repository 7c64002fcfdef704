import CodeChunks.Path
import CodeChunks.Text.Blank
import CodeChunks.Text.Lowercase

namespace CodeChunks

inductive Language where
  | javascript
  | typescript
  | python
  | java
  deriving DecidableEq, Repr

inductive Grammar where
  | javascript
  | typescript
  | tsx
  | python
  | java
  deriving DecidableEq, Repr

namespace Language

def all : List Language := [.javascript, .typescript, .python, .java]

@[simp] theorem mem_all (l : Language) : l ∈ all := by cases l <;> decide

def name : Language → String
  | .javascript => "javascript"
  | .typescript => "typescript"
  | .python => "python"
  | .java => "java"

def nameOrUnknown (l : Option Language) : String := (l.map name).getD "unknown"

def ofName? (s : String) : Option Language :=
  all.find? fun l => Text.eqIgnoreCase l.name (Text.trim s)

def hasImports : Language → Bool
  | .javascript | .typescript => true
  | .python | .java => false

def grammar : Language → Grammar
  | .javascript => .javascript
  | .typescript => .typescript
  | .python => .python
  | .java => .java

end Language

namespace Grammar

def all : List Grammar := [.javascript, .typescript, .tsx, .python, .java]

@[simp] theorem mem_all (g : Grammar) : g ∈ all := by cases g <;> decide

def name : Grammar → String
  | .javascript => "javascript"
  | .typescript => "typescript"
  | .tsx => "tsx"
  | .python => "python"
  | .java => "java"

def ofName? (s : String) : Option Grammar := all.find? (·.name == s)

def count : Nat := 5

def index : Grammar → Fin count
  | .javascript => ⟨0, by decide⟩
  | .typescript => ⟨1, by decide⟩
  | .tsx => ⟨2, by decide⟩
  | .python => ⟨3, by decide⟩
  | .java => ⟨4, by decide⟩

theorem index_inj {g g' : Grammar} : g.index = g'.index ↔ g = g' := by
  cases g <;> cases g' <;> decide

end Grammar

structure Policy where
  language : Language
  grammar : Grammar
  deriving DecidableEq, Repr

namespace Policy

def ofLanguage (l : Language) : Policy := ⟨l, l.grammar⟩

def builtin? : String → Option Policy
  | "js" | "jsx" | "mjs" | "cjs" => some (ofLanguage .javascript)
  | "ts" | "mts" | "cts" => some (ofLanguage .typescript)
  | "tsx" => some ⟨.typescript, .tsx⟩
  | "py" | "pyi" => some (ofLanguage .python)
  | "java" => some (ofLanguage .java)
  | _ => none

def ofExtension? (ext : String) : Option Policy := builtin? (Text.lowercase ext)

def ofPath? (path : OsText) : Option Policy :=
  ((Path.extension? path).bind OsText.text?).bind ofExtension?

end Policy

end CodeChunks
