import CodeChunks.Json
import CodeChunks.Syntax.Node

namespace CodeChunks.Syntax

def splitComma : List Char → List (List Char)
  | [] => [[]]
  | c :: cs =>
    if c = ',' then [] :: splitComma cs
    else
      match splitComma cs with
      | [] => [[c]]
      | part :: parts => (c :: part) :: parts

def fieldNames (s : String) : List String :=
  ((splitComma s.toList).filter (!·.isEmpty)).map String.ofList

def addPoint : Array Text.Point × Text.Point → UInt8 → Array Text.Point × Text.Point
  | (points, p), b => (points.push (p.next b), p.next b)

def points (source : String) : Array Text.Point :=
  ((Text.bytes source).foldl addPoint (#[⟨0, 0⟩], ⟨0, 0⟩)).1

def Row.ofJson? (points : Array Text.Point) : Json → Option Row
  | .arr [.str kind, .str fields, .nat start, .nat stop, .str flags, .nat childCount] => do
    let flags := flags.toList
    return {
      label :=
        { kind, fields := fieldNames fields, start, stop, startPoint := ← points[start]?,
          stopPoint := ← points[stop]?, named := 'n' ∈ flags, error := 'e' ∈ flags,
          missing := 'm' ∈ flags, faulty := 'h' ∈ flags }
      childCount }
  | _ => none

def Node.ofJson? (source : String) (j : Json) : Option Node :=
  (j.list? (Row.ofJson? (points source))).bind Node.ofRows?

end CodeChunks.Syntax
