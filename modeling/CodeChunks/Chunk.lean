import CodeChunks.Language.Kind

namespace CodeChunks

inductive SpecifierKind where
  | default
  | «namespace»
  | named
  deriving DecidableEq, Repr

namespace SpecifierKind

def all : List SpecifierKind := [.default, .namespace, .named]

@[simp] theorem mem_all (k : SpecifierKind) : k ∈ all := by cases k <;> decide

def name : SpecifierKind → String
  | .default => "default"
  | .namespace => "namespace"
  | .named => "named"

end SpecifierKind

structure Specifier where
  kind : SpecifierKind
  binding : String
  imported : Option String
  deriving DecidableEq, Repr

structure Import where
  source : String
  specifiers : List Specifier
  deriving DecidableEq, Repr

structure Param where
  name : String
  annotation : Option String := none
  deriving DecidableEq, Repr

structure Details where
  params : List Param := []
  returnType : Option String := none
  isAsync : Bool := false
  isGenerator : Bool := false
  decorators : List String := []
  documentation : Option String := none
  deriving DecidableEq, Repr

namespace Details

def empty : Details := {}

def isEmpty (d : Details) : Bool := d == empty

def nonEmpty? (d : Details) : Option Details := if d.isEmpty then none else some d

end Details

structure RawChunk where
  type : ChunkType
  name : String
  content : String
  start : Nat
  stop : Nat
  lineStart : Nat
  lineEnd : Nat
  details : Option Details
  deriving DecidableEq, Repr

structure Metadata where
  filePath : String
  language : Language
  type : ChunkType
  name : String
  lineStart : Nat
  lineEnd : Nat
  imports : List Import
  details : Option Details
  deriving DecidableEq, Repr

structure Chunk where
  id : String
  content : String
  metadata : Metadata
  deriving DecidableEq, Repr

structure LineSpan where
  start : Nat
  stop : Nat
  deriving DecidableEq, Repr

def LineSpan.strictlyContains (a b : LineSpan) : Bool :=
  a.start ≤ b.start && b.stop ≤ a.stop && (a.start != b.start || a.stop != b.stop)

def RawChunk.lines (c : RawChunk) : LineSpan := ⟨c.lineStart, c.lineEnd⟩

namespace Chunk

def lines (c : Chunk) : LineSpan := ⟨c.metadata.lineStart, c.metadata.lineEnd⟩

def lineCount (c : Chunk) : Nat := c.metadata.lineEnd - c.metadata.lineStart + 1

def containsLine (c : Chunk) (line : Nat) : Bool :=
  c.metadata.lineStart ≤ line && line ≤ c.metadata.lineEnd

def strictlyContains (a b : Chunk) : Bool := a.lines.strictlyContains b.lines

end Chunk

end CodeChunks
