import CodeChunks.Chunk
import CodeChunks.Syntax.Node
import CodeChunks.Text.Blank
import CodeChunks.Text.Quoted

namespace CodeChunks.Extraction.Python

open Syntax

def param? (source : String) (p : Node) : Option Param :=
  match p.kind with
  | "identifier" | "list_splat_pattern" | "dictionary_splat_pattern" =>
    some { name := p.text source }
  | "typed_parameter" =>
    p.firstNamed?.map fun n =>
      { name := n.text source, annotation := (p.field? "type").map (·.text source) }
  | "default_parameter" => (p.field? "name").map fun n => { name := n.text source }
  | "typed_default_parameter" =>
    (p.field? "name").map fun n =>
      { name := n.text source, annotation := (p.field? "type").map (·.text source) }
  | _ => none

def params (target : Node) (source : String) : List Param :=
  match target.field? "parameters" with
  | some list => list.namedChildren.filterMap (param? source)
  | none => []

def docstring (target : Node) (source : String) : Option String := do
  let body ← target.field? "body"
  let first ← body.firstNamed?
  guard (first.kind == "expression_statement")
  let literal ← first.firstNamed?
  guard (literal.kind == "string")
  Text.trimmed? (Text.literalBody (literal.text source))

def opensScope (kind : String) : Bool :=
  kind ∈ ["function_definition", "class_definition", "lambda"]

mutual

def yieldsAt : Node → Bool
  | .mk l cs => l.kind == "yield" || (!opensScope l.kind && yieldsBelow cs)

def yieldsBelow : List Node → Bool
  | [] => false
  | c :: cs => (c.isNamed && yieldsAt c) || yieldsBelow cs

end

def yields (target : Node) : Bool := ((target.field? "body").map yieldsAt).getD false

def decorators (root : Node) (source : String) : List String :=
  if root.kind = "decorated_definition" then
    (root.namedChildren.filter (·.kind == "decorator")).map (·.text source)
  else []

def details (root : Site) (inner : Option Node) (source : String) : Option Details :=
  let target := inner.getD root.node
  let decorators := decorators root.node source
  match target.kind with
  | "function_definition" =>
    { params := params target source
      returnType := (target.field? "return_type").map (·.text source)
      isAsync := target.hasToken "async"
      isGenerator := yields target
      decorators
      documentation := docstring target source : Details }.nonEmpty?
  | "class_definition" =>
    { decorators, documentation := docstring target source : Details }.nonEmpty?
  | _ => none

end CodeChunks.Extraction.Python
