import CodeChunks.Files.Entry
import CodeChunks.ParserLibrary
import CodeChunks.Text.Decimal
import CodeChunks.Wire.Tree

namespace CodeChunks

open Syntax

structure Workspace where
  files : Files.Tree
  trees : List (Grammar × String × Node) := []

namespace Workspace

def empty : Workspace where
  files := { top := [("work", .emptyDirectory)], workingDirectory := ["work"] }

def parsers (w : Workspace) : ParserLibrary := .ofTable fun g text =>
  (w.trees.find? fun (h, t, _) => h = g && t == text).map (·.2.2)

def hexBytes? : List Char → Option (List UInt8)
  | [] => some []
  | a :: b :: rest => do
    guard (Text.isDigitIn 16 a && Text.isDigitIn 16 b)
    return (Text.digitsValue 16 [a, b]).toUInt8 :: (← hexBytes? rest)
  | [_] => none

/-- Content as text that may be repeated, or as bytes in hexadecimal digits; without content the
file is a directory. -/
def content? (j : Json) : Option (Option ByteArray) :=
  match j.member? "content", j.member? "hex" with
  | some (.str s), _ =>
    let count := ((j.member? "repeat").bind Json.nat?).getD 1
    some (some (String.join (List.replicate count s)).toByteArray)
  | _, some (.str hex) => (hexBytes? hex.toList).map fun bs => some ⟨bs.toArray⟩
  | _, _ => some none

def tree? (j : Json) (content : ByteArray) : Option (Grammar × String × Node) := do
  let g ← (j.member? "grammar").bind Json.str? |>.bind Grammar.ofName?
  let text ← String.fromUTF8? content
  let root ← (j.member? "tree").bind (Node.ofJson? text)
  return (g, text, root)

def addFile? (w : Workspace) (j : Json) : Option Workspace := do
  let path ← (j.member? "path").bind Json.str?
  match ← content? j with
  | none => return { w with files := w.files.makeDirectory path }
  | some content =>
    return {
      files := w.files.write path content
      trees := (tree? j content).toList ++ w.trees }

def ofJson? (j : Json) : Option Workspace :=
  match j with
  | .arr files => files.foldlM addFile? empty
  | _ => none

end Workspace

end CodeChunks
