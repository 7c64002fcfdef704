import CodeChunks.Event
import CodeChunks.ParserLibrary

/-!
The registry resolves extensions to policies and lends out parsers. A grammar is loaded at its
first use, a parser is built only when none of its grammar is idle, and a parser that is given back
waits for the next loan.
-/

namespace CodeChunks

/-- A parser on loan. The loan records the grammar it was asked for. -/
structure Loan where
  grammar : Grammar
  parser : Parser
  deriving DecidableEq, Repr

structure Registry where
  /-- Extensions in lower case; of several entries for one extension the last counts. -/
  overrides : List (String × Policy) := []
  loaded : List Grammar := []
  idle : Vector (List Parser) Grammar.count := .replicate _ []
  built : List Parser := []

namespace Registry

def ofExtensions (extensions : List (String × Policy)) : Registry :=
  { overrides := extensions.map fun (ext, policy) => (Text.lowercase ext, policy) }

def override? (r : Registry) (ext : String) : Option Policy :=
  (r.overrides.reverse.find? (·.1 == ext)).map (·.2)

def resolveExtension? (r : Registry) (ext : String) : Option Policy :=
  let ext := Text.lowercase ext
  (r.override? ext).or (Policy.ofExtension? ext)

def resolve? (r : Registry) (path : OsText) : Option Policy :=
  ((Path.extension? path).bind OsText.text?).bind r.resolveExtension?

def load (r : Registry) (g : Grammar) : Registry × List Event :=
  if g ∈ r.loaded then (r, []) else ({ r with loaded := g :: r.loaded }, [.loading g])

def pool (r : Registry) (g : Grammar) : List Parser := r.idle[g.index]

def setPool (r : Registry) (g : Grammar) (ps : List Parser) : Registry :=
  { r with idle := r.idle.set g.index ps }

def build (r : Registry) (lib : ParserLibrary) (g : Grammar) :
    Registry × Except ChunkError Parser × List Event :=
  let (r, events) := r.load g
  match lib.refusal? g with
  | some reason => (r, .error (ParserLibrary.refused reason), events)
  | none =>
    let p : Parser := ⟨r.built.length, g⟩
    ({ r with built := p :: r.built }, .ok p, events)

/-- Lends out the idle parser of the grammar that was given back last, or a new one. -/
def checkout (r : Registry) (lib : ParserLibrary) (g : Grammar) :
    Registry × Except ChunkError Loan × List Event :=
  match r.pool g with
  | p :: ps => (r.setPool g ps, .ok ⟨g, p⟩, [])
  | [] =>
    let (r, p, events) := r.build lib g
    (r, p.map (Loan.mk g), events)

def giveBack (r : Registry) (loan : Loan) : Registry :=
  r.setPool loan.grammar (loan.parser :: r.pool loan.grammar)

def parse (r : Registry) (lib : ParserLibrary) (m : Memory) (policy : Policy) (source : String) :
    Registry × Memory × Except ChunkError Syntax.Node × List Event :=
  let (r, loan, events) := r.checkout lib policy.grammar
  match loan with
  | .error e => (r, m, .error e, events)
  | .ok loan =>
    let tree := lib.tree? loan.parser.grammar (m.past loan.parser) source
    (r.giveBack loan, (loan.parser, .reset) :: (loan.parser, .parsed source) :: m,
      ParserLibrary.accept policy tree, events)

end Registry

structure Lending where
  registry : Registry := {}
  slots : List (Option Loan) := []

namespace Lending

inductive Step where
  | resolve (path : OsText)
  | resolveExtension (ext : String)
  | load (grammar : Grammar)
  | checkout (grammar : Grammar)
  | giveBack (slot : Nat)
  deriving DecidableEq, Repr

inductive Answer where
  | policy (policy : Option Policy)
  | loaded
  | slot (slot : Nat)
  | refused (error : ChunkError)
  | returned (held : Bool)
  deriving DecidableEq, Repr

/-- A loan takes the next slot; a slot that is given back stays free. -/
def step (s : Lending) (lib : ParserLibrary) : Step → Lending × Answer × List Event
  | .resolve path => (s, .policy (s.registry.resolve? path), [])
  | .resolveExtension ext => (s, .policy (s.registry.resolveExtension? ext), [])
  | .load g =>
    let (r, events) := s.registry.load g
    ({ s with registry := r }, .loaded, events)
  | .checkout g =>
    let (r, loan, events) := s.registry.checkout lib g
    match loan with
    | .error e => ({ s with registry := r }, .refused e, events)
    | .ok loan => (⟨r, s.slots ++ [some loan]⟩, .slot s.slots.length, events)
  | .giveBack slot =>
    match s.slots[slot]?.join with
    | some loan => (⟨s.registry.giveBack loan, s.slots.set slot none⟩, .returned true, [])
    | none => (s, .returned false, [])

def onLoan (s : Lending) : List Loan := s.slots.filterMap id

end Lending

end CodeChunks
