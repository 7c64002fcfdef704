import CodeChunks.Error
import CodeChunks.Syntax.Fault

/-!
The library that parses texts. What it makes of a text is not known here, but for what is assumed of
it by name.
-/

namespace CodeChunks

structure Parser where
  serial : Nat
  grammar : Grammar
  deriving DecidableEq, Repr

inductive Use where
  | parsed (source : String)
  | reset
  deriving DecidableEq, Repr

structure ParserLibrary where
  refusal? : Grammar → Option String
  /-- What a parser makes of a text, when it makes anything of it. It may depend on what the parser
  was used for before, the latest use first. -/
  tree? : Grammar → List Use → String → Option Syntax.Node

namespace ParserLibrary

def ofTable (tree? : Grammar → String → Option Syntax.Node) : ParserLibrary :=
  ⟨fun _ => none, fun g _ source => tree? g source⟩

/-- The parsers are configured without fail, and parse a text alike whatever came before. -/
structure Dependable (lib : ParserLibrary) : Prop where
  takes : ∀ g, lib.refusal? g = none
  forgets : ∀ g past source, lib.tree? g past source = lib.tree? g [] source

theorem dependable_ofTable (tree? : Grammar → String → Option Syntax.Node) :
    (ofTable tree?).Dependable :=
  ⟨fun _ => rfl, fun _ _ _ => rfl⟩

def accept (policy : Policy) : Option Syntax.Node → Except ChunkError Syntax.Node
  | none => .error (.parse "parser produced no tree" 1 1)
  | some root =>
    match root.fault? with
    | some fault => .error (.parse (fault.message policy.grammar) fault.line fault.column)
    | none => .ok root

def refused (reason : String) : ChunkError := .grammarRefused ("Failed to set language: " ++ reason)

/-- What a new parser makes of a text. -/
def parse (lib : ParserLibrary) (policy : Policy) (source : String) :
    Except ChunkError Syntax.Node :=
  match lib.refusal? policy.grammar with
  | some reason => .error (refused reason)
  | none => accept policy (lib.tree? policy.grammar [] source)

end ParserLibrary

/-- What each parser was used for, the latest use first. -/
abbrev Memory := List (Parser × Use)

def Memory.past (m : Memory) (p : Parser) : List Use := (m.filter (·.1 = p)).map (·.2)

end CodeChunks
