import CodeChunks.Language
import CodeChunks.Syntax.Node

namespace CodeChunks.Syntax

def firstFault? : List Node → Option Node
  | [] => none
  | n :: rest =>
    if n.isFault then some n
    else if n.label.faulty then firstFault? (n.children ++ rest)
    else firstFault? rest
termination_by ns => Node.sizes ns
decreasing_by
  · simp only [Node.sizes, Node.sizes_append, n.size_eq]; omega
  · have := n.size_pos; simp only [Node.sizes]; omega

inductive Fault where
  | missing (kind : String) (line column : Nat)
  | unexpected (line column : Nat)
  | unlocated
  deriving DecidableEq, Repr

namespace Fault

def ofNode (n : Node) : Fault :=
  let column := n.label.startPoint.column + 1
  if n.label.missing then .missing n.kind n.line column else .unexpected n.line column

def reason : Fault → String
  | .missing kind _ _ => "missing " ++ kind
  | .unexpected _ _ => "unexpected syntax"
  | .unlocated => "syntax error"

def line : Fault → Nat
  | .missing _ l _ | .unexpected l _ => l
  | .unlocated => 1

def column : Fault → Nat
  | .missing _ _ c | .unexpected _ c => c
  | .unlocated => 1

def message (f : Fault) (g : Grammar) : String := g.name ++ " grammar: " ++ f.reason

end Fault

def Node.fault? (n : Node) : Option Fault :=
  if n.label.faulty then
    match firstFault? [n] with
    | some m => some (.ofNode m)
    | none => some .unlocated
  else none

end CodeChunks.Syntax
