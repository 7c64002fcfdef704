import CodeChunks.Toml.Moment
import CodeChunks.Toml.Number
import CodeChunks.Toml.Quoted

/-!
TOML documents: headers and entries, one a line, and the values entries hold.
-/

namespace CodeChunks.Toml

abbrev Reader (α : Type) := List Char → Option (α × List Char)

mutual

def skipGaps : List Char → Option (List Char)
  | [] => some []
  | '#' :: cs => skipComment cs
  | '\r' :: '\n' :: cs => skipGaps cs
  | c :: cs => if isSpace c || c == '\n' then skipGaps cs else some (c :: cs)

def skipComment : List Char → Option (List Char)
  | [] => none
  | '\n' :: cs => skipGaps cs
  | '\r' :: '\n' :: cs => skipGaps cs
  | c :: cs => if isPlain c then skipComment cs else none

end

def endLine (cs : List Char) : Option (List Char) :=
  let rest := match skipSpace cs with
    | '#' :: rest => rest.dropWhile isPlain
    | rest => rest
  if rest.isEmpty then some [] else newline? rest

def isBare (c : Char) : Bool := c.isAlphanum || c == '_' || c == '-'

def readName (cs : List Char) : Option (String × List Char) :=
  match cs.span isBare with
  | ([], _) => readLineString cs
  | (name, rest) => some (String.ofList name, rest)

def readNames (more : Nat) (cs : List Char) : Option (List String × List Char) := do
  let (name, rest) ← readName (skipSpace cs)
  match more, skipSpace rest with
  | more + 1, '.' :: rest =>
    let (names, rest) ← readNames more rest
    return (name :: names, rest)
  | _, rest => return ([name], rest)

def depthLimit : Nat := 79

def readKey (cs : List Char) : Option (Key × List Char) := do
  let (names, rest) ← readNames (depthLimit - 1) cs
  return (⟨names.dropLast, ← names.getLast?⟩, rest)

def readScalar (cs : List Char) : Option (Item × List Char) :=
  match cs with
  | '"' :: _ | '\'' :: _ => (readString cs).map fun (s, rest) => (.str s, rest)
  | 't' :: 'r' :: 'u' :: 'e' :: rest => some (.bool true, rest)
  | 'f' :: 'a' :: 'l' :: 's' :: 'e' :: rest => some (.bool false, rest)
  | _ =>
    match readMoment cs with
    | some (text, rest) => some (.moment text, rest)
    | none => readNumber cs

def readItems (item : Reader Item) (fuel : Nat) (done : List Item) (cs : List Char) :
    Option (Item × List Char) :=
  match fuel with
  | 0 => none
  | fuel + 1 =>
    match skipGaps cs with
    | none => none
    | some (']' :: rest) => some (.array done.reverse, rest)
    | some rest =>
      match item rest with
      | none => none
      | some (i, rest) =>
        match skipGaps rest with
        | some (',' :: rest) => readItems item fuel (i :: done) rest
        | some (']' :: rest) => some (.array (i :: done).reverse, rest)
        | _ => none

def readEntry (item : Reader Item) (cs : List Char) : Option ((Key × Item) × List Char) := do
  let (key, rest) ← readKey cs
  let rest ← readMark '=' rest
  let (i, rest) ← item (skipSpace rest)
  return ((key, i), rest)

def readMembers (item : Reader Item) (fuel : Nat) (done : Members) (cs : List Char) :
    Option (Item × List Char) :=
  match fuel with
  | 0 => none
  | fuel + 1 =>
    match readEntry item cs with
    | none => none
    | some ((key, i), rest) =>
      match Members.addAt key.last i key.path done, skipSpace rest with
      | some done, ',' :: rest => readMembers item fuel done rest
      | some done, '\x7d' :: rest => some (.table .inline done, rest)
      | _, _ => none

def readTable (item : Reader Item) (cs : List Char) : Option (Item × List Char) :=
  match skipSpace cs with
  | '\x7d' :: rest => some (.table .inline [], rest)
  | rest => readMembers item rest.length [] rest

def readItem : Nat → Reader Item
  | 0, cs => readScalar cs
  | depth + 1, cs =>
    match cs with
    | '[' :: rest => readItems (readItem depth) rest.length [] rest
    | '\x7b' :: rest => readTable (readItem depth) rest
    | _ => readScalar cs

def readStatement (cs : List Char) : Option (Statement × List Char) :=
  match cs with
  | '[' :: '[' :: rest => do
    let (key, rest) ← readKey rest
    return (.element key, ← readMark ']' (← readMark ']' rest))
  | '[' :: rest => do
    let (key, rest) ← readKey rest
    return (.table key, ← readMark ']' rest)
  | _ => (readEntry (readItem depthLimit) cs).map fun ((key, i), rest) => (.entry key i, rest)

def readStatements (fuel : Nat) (done : List Statement) (cs : List Char) :
    Option (List Statement) :=
  match fuel with
  | 0 => none
  | fuel + 1 =>
    match skipSpace cs with
    | [] => some done.reverse
    | rest =>
      match endLine rest with
      | some rest => readStatements fuel done rest
      | none =>
        match readStatement rest with
        | none => none
        | some (s, rest) =>
          match endLine rest with
          | some rest => readStatements fuel (s :: done) rest
          | none => none

def skipByteOrderMark (cs : List Char) : List Char :=
  match cs with
  | c :: rest => if c.toNat = 0xFEFF then rest else cs
  | [] => []

def parse? (text : String) : Option Members :=
  let cs := skipByteOrderMark text.toList
  (readStatements (cs.length + 1) [] cs).bind Members.ofStatements?

end CodeChunks.Toml
