import CodeChunks.Text.Decimal

namespace CodeChunks.Toml

def isPlain (c : Char) : Bool := c == '\t' || (32 ≤ c.toNat && c.toNat != 127)

def isSpace (c : Char) : Bool := c == ' ' || c == '\t'

def skipSpace (cs : List Char) : List Char := cs.dropWhile isSpace

def newline? : List Char → Option (List Char)
  | '\n' :: cs => some cs
  | '\r' :: '\n' :: cs => some cs
  | _ => none

def skipNewline (cs : List Char) : List Char := (newline? cs).getD cs

def skipBlankLines : List Char → List Char
  | '\r' :: '\n' :: cs => skipBlankLines cs
  | c :: cs => if isSpace c || c == '\n' then skipBlankLines cs else c :: cs
  | [] => []

def scalar? (n : Nat) : Option Char := if n.isValidChar then some (Char.ofNat n) else none

def readCode (count : Nat) (cs : List Char) : Option (Char × List Char) := do
  let (digits, rest) ← Text.takeDigits? 16 count cs
  return (← scalar? (Text.digitsValue 16 digits), rest)

def readEscape : List Char → Option (Char × List Char)
  | 'b' :: cs => some (Char.ofNat 8, cs)
  | 't' :: cs => some ('\t', cs)
  | 'n' :: cs => some ('\n', cs)
  | 'f' :: cs => some (Char.ofNat 12, cs)
  | 'r' :: cs => some ('\r', cs)
  | '"' :: cs => some ('"', cs)
  | '\\' :: cs => some ('\\', cs)
  | 'u' :: cs => readCode 4 cs
  | 'U' :: cs => readCode 8 cs
  | _ => none

structure Delimiter where
  mark : Char
  escapes : Bool

def Delimiter.basic : Delimiter := ⟨'"', true⟩

def Delimiter.literal : Delimiter := ⟨'\'', false⟩

def readLine (d : Delimiter) (fuel : Nat) (done : List Char) (cs : List Char) :
    Option (String × List Char) :=
  match fuel, cs with
  | fuel + 1, c :: rest =>
    if c = d.mark then some (String.ofList done.reverse, rest)
    else if d.escapes && c == '\\' then
      match readEscape rest with
      | some (e, rest) => readLine d fuel (e :: done) rest
      | none => none
    else if isPlain c then readLine d fuel (c :: done) rest
    else none
  | _, _ => none

def continuation? (cs : List Char) : Option (List Char) :=
  (newline? (skipSpace cs)).map skipBlankLines

/-- The rest of a string over several lines. Up to two marks may stand before the closing three. -/
def readBlock (d : Delimiter) (fuel : Nat) (done : List Char) (cs : List Char) :
    Option (String × List Char) :=
  match fuel, cs with
  | fuel + 1, c :: rest =>
    if c = d.mark then
      let count := (cs.takeWhile (· == d.mark)).length
      if count < 3 then readBlock d fuel (c :: done) rest
      else
        let extra := min (count - 3) 2
        some (String.ofList (done.reverse ++ List.replicate extra d.mark), cs.drop (extra + 3))
    else if d.escapes && c == '\\' then
      match continuation? rest with
      | some rest => readBlock d fuel done rest
      | none =>
        match readEscape rest with
        | some (e, rest) => readBlock d fuel (e :: done) rest
        | none => none
    else
      match newline? cs with
      | some rest => readBlock d fuel ('\n' :: done) rest
      | none => if isPlain c then readBlock d fuel (c :: done) rest else none
  | _, _ => none

def readLineString : List Char → Option (String × List Char)
  | '"' :: cs => readLine .basic cs.length [] cs
  | '\'' :: cs => readLine .literal cs.length [] cs
  | _ => none

def readString : List Char → Option (String × List Char)
  | '"' :: '"' :: '"' :: cs => readBlock .basic cs.length [] (skipNewline cs)
  | '\'' :: '\'' :: '\'' :: cs => readBlock .literal cs.length [] (skipNewline cs)
  | cs => readLineString cs

end CodeChunks.Toml
