import CodeChunks.Chunk
import CodeChunks.Syntax.Node

namespace CodeChunks.Extraction.Script

open Syntax

def isFunction (kind : String) : Bool :=
  kind ∈ ["function_declaration", "generator_function_declaration", "function_expression",
    "function", "generator_function", "arrow_function", "function_signature", "method_definition"]

def isGenerator (kind : String) : Bool :=
  kind == "generator_function_declaration" || kind == "generator_function"

def isClass (kind : String) : Bool :=
  kind ∈ ["class_declaration", "abstract_class_declaration", "class"]

def annotationText (n : Node) (source : String) : String :=
  Text.trim (String.ofList
    ((Text.trimStart (n.text source)).toList.dropWhile (· == ':')))

def param? (source : String) (p : Node) : Option Param :=
  match p.kind with
  | "comment" | "decorator" => none
  | "assignment_pattern" => (p.field? "left").map fun n => { name := n.text source }
  | "required_parameter" | "optional_parameter" =>
    (p.field? "pattern").map fun n =>
      { name := n.text source, annotation := (p.field? "type").map (annotationText · source) }
  | _ => some { name := p.text source }

def params (target : Node) (source : String) : List Param :=
  match target.field? "parameter" with
  | some single => [{ name := single.text source }]
  | none =>
    match target.field? "parameters" with
    | some list => list.namedChildren.filterMap (param? source)
    | none => []

def decoratorsOf (n : Node) (source : String) : List String :=
  (n.children.filter (·.kind == "decorator")).map (·.text source)

def decorators (root : Node) (inner : Option Node) (source : String) : List String :=
  decoratorsOf root source ++ (inner.map (decoratorsOf · source)).getD []

def isComment (n : Node) : Bool := n.kind == "comment"

def trailsCode (n : Node) (before : List Node) : Bool :=
  match before.head? with
  | some p => !isComment p && p.stopRow == n.startRow
  | none => false

/-- The comments directly above row `nextRow`, the nearest first. The run ends at the first
sibling that is no comment, leaves a row free below it, or trails other code. -/
def commentRun (nextRow : Nat) : List Node → List Node
  | [] => []
  | c :: before =>
    if isComment c && nextRow ≤ c.stopRow + 1 && !trailsCode c before then
      c :: commentRun c.startRow before
    else []

def leadingComments (site : Site) : List Node :=
  (commentRun site.node.startRow site.before).reverse

def documentation (site : Site) (source : String) : Option String :=
  match leadingComments site with
  | [] => none
  | comments => some ("\n".intercalate (comments.map (·.text source)))

def details (root : Site) (inner : Option Node) (source : String) : Option Details :=
  let target := inner.getD root.node
  let outer : Details :=
    { decorators := decorators root.node inner source
      documentation := documentation root source }
  if isFunction target.kind then
    { outer with
      params := params target source
      returnType := (target.field? "return_type").map (annotationText · source)
      isAsync := target.hasToken "async"
      isGenerator := isGenerator target.kind || target.hasToken "*" }.nonEmpty?
  else if isClass target.kind then outer.nonEmpty?
  else none

end CodeChunks.Extraction.Script
