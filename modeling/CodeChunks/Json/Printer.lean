import CodeChunks.Json

namespace CodeChunks.Json

def hexDigit (n : Nat) : Char := (Nat.toDigits 16 n).headD '0'

def escape (c : Char) : List Char :=
  match c with
  | '"' => ['\\', '"']
  | '\\' => ['\\', '\\']
  | '\n' => ['\\', 'n']
  | '\r' => ['\\', 'r']
  | '\t' => ['\\', 't']
  | _ =>
    if c.toNat = 8 then ['\\', 'b']
    else if c.toNat = 12 then ['\\', 'f']
    else if c.toNat < 32 then
      ['\\', 'u', '0', '0', hexDigit (c.toNat / 16), hexDigit (c.toNat % 16)]
    else [c]

def quote (s : String) : String :=
  "\"" ++ String.ofList (s.toList.flatMap escape) ++ "\""

structure Layout where
  opening : Nat → String
  between : Nat → String
  closing : Nat → String
  colon : String

def Layout.compact : Layout :=
  { opening := fun _ => "", between := fun _ => ",", closing := fun _ => "", colon := ":" }

def indent (depth : Nat) : String := "\n" ++ "".pushn ' ' (2 * depth)

def Layout.indented : Layout :=
  { opening := fun depth => indent (depth + 1)
    between := fun depth => "," ++ indent (depth + 1)
    closing := indent
    colon := ": " }

mutual

def render (l : Layout) (depth : Nat) : Json → String
  | .null => "null"
  | .bool true => "true"
  | .bool false => "false"
  | .nat n => toString n
  | .number text => text
  | .str s => quote s
  | .arr [] => "[]"
  | .arr (j :: js) =>
    "[" ++ l.opening depth ++ render l (depth + 1) j ++ renderItems l depth js ++
      l.closing depth ++ "]"
  | .obj [] => "\x7b\x7d"
  | .obj ((k, j) :: ms) =>
    "\x7b" ++ l.opening depth ++ quote k ++ l.colon ++ render l (depth + 1) j ++
      renderMembers l depth ms ++ l.closing depth ++ "\x7d"

def renderItems (l : Layout) (depth : Nat) : List Json → String
  | [] => ""
  | j :: js => l.between depth ++ render l (depth + 1) j ++ renderItems l depth js

def renderMembers (l : Layout) (depth : Nat) : List (String × Json) → String
  | [] => ""
  | (k, j) :: ms =>
    l.between depth ++ quote k ++ l.colon ++ render l (depth + 1) j ++ renderMembers l depth ms

end

def compact (j : Json) : String := render .compact 0 j

def pretty (j : Json) : String := render .indented 0 j

end CodeChunks.Json
