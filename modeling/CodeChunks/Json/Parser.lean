import CodeChunks.Json
import CodeChunks.Text.Decimal

namespace CodeChunks.Json

def isSpace (c : Char) : Bool := c == ' ' || c == '\n' || c == '\r' || c == '\t'

def skipSpace (cs : List Char) : List Char := cs.dropWhile isSpace

def readHex4 (cs : List Char) : Option (Nat × List Char) :=
  (Text.takeDigits? 16 4 cs).map fun (digits, rest) => (Text.digitsValue 16 digits, rest)

def isHighSurrogate (n : Nat) : Bool := 0xD800 ≤ n && n < 0xDC00

def isLowSurrogate (n : Nat) : Bool := 0xDC00 ≤ n && n < 0xE000

def readUnicode (cs : List Char) : Option (Char × List Char) := do
  let (high, rest) ← readHex4 cs
  if isHighSurrogate high then
    match rest with
    | '\\' :: 'u' :: rest =>
      let (low, rest) ← readHex4 rest
      if isLowSurrogate low then
        some (Char.ofNat (0x10000 + (high - 0xD800) * 0x400 + (low - 0xDC00)), rest)
      else none
    | _ => none
  else if isLowSurrogate high then none
  else some (Char.ofNat high, rest)

def readEscape : List Char → Option (Char × List Char)
  | '"' :: rest => some ('"', rest)
  | '\\' :: rest => some ('\\', rest)
  | '/' :: rest => some ('/', rest)
  | 'b' :: rest => some (Char.ofNat 8, rest)
  | 'f' :: rest => some (Char.ofNat 12, rest)
  | 'n' :: rest => some ('\n', rest)
  | 'r' :: rest => some ('\r', rest)
  | 't' :: rest => some ('\t', rest)
  | 'u' :: rest => readUnicode rest
  | _ => none

def readString (fuel : Nat) (done : List Char) (cs : List Char) : Option (String × List Char) :=
  match fuel, cs with
  | _, '"' :: rest => some (String.ofList done.reverse, rest)
  | fuel + 1, '\\' :: rest =>
    match readEscape rest with
    | some (c, rest) => readString fuel (c :: done) rest
    | none => none
  | fuel + 1, c :: rest => if c.toNat < 32 then none else readString fuel (c :: done) rest
  | _, _ => none

def readSign : List Char → List Char × List Char
  | '-' :: rest => (['-'], rest)
  | cs => ([], cs)

def readMarked (isMark : Char → Bool) (signs : List Char) (cs : List Char) :
    Option (List Char × List Char) :=
  match cs with
  | m :: rest =>
    if isMark m then
      let (sign, rest) := match rest with
        | c :: tail => if c ∈ signs then ([c], tail) else ([], rest)
        | [] => ([], [])
      let (digits, rest) := rest.span Char.isDigit
      if digits.isEmpty then none else some (m :: sign ++ digits, rest)
    else some ([], cs)
  | [] => some ([], [])

def readNumber (cs : List Char) : Option (Json × List Char) := do
  let (sign, rest) := readSign cs
  let (whole, rest) := rest.span Char.isDigit
  guard (!whole.isEmpty && (whole.length == 1 || whole.head? != some '0'))
  let (fraction, rest) ← readMarked (· == '.') [] rest
  let (exponent, rest) ← readMarked (fun c => c == 'e' || c == 'E') ['+', '-'] rest
  if sign.isEmpty && fraction.isEmpty && exponent.isEmpty then
    some (.nat (Text.digitsValue 10 whole), rest)
  else some (.number (String.ofList (sign ++ whole ++ fraction ++ exponent)), rest)

def readWord : List Char → Option (Json × List Char)
  | 'n' :: 'u' :: 'l' :: 'l' :: rest => some (.null, rest)
  | 't' :: 'r' :: 'u' :: 'e' :: rest => some (.bool true, rest)
  | 'f' :: 'a' :: 'l' :: 's' :: 'e' :: rest => some (.bool false, rest)
  | cs => readNumber cs

def readKey (cs : List Char) : Option (String × List Char) := do
  match skipSpace cs with
  | '"' :: rest =>
    let (key, rest) ← readString rest.length [] rest
    match skipSpace rest with
    | ':' :: rest => some (key, rest)
    | _ => none
  | _ => none

mutual

/-- Each step of the recursion reads a character, so that the length of the text is fuel enough. -/
def readValue (fuel : Nat) (cs : List Char) : Option (Json × List Char) :=
  match fuel with
  | 0 => none
  | fuel + 1 =>
    match skipSpace cs with
    | '"' :: rest => (readString rest.length [] rest).map fun (s, rest) => (.str s, rest)
    | '[' :: rest =>
      match skipSpace rest with
      | ']' :: rest => some (.arr [], rest)
      | rest => readItems fuel [] rest
    | '\x7b' :: rest =>
      match skipSpace rest with
      | '\x7d' :: rest => some (.obj [], rest)
      | rest => readMembers fuel [] rest
    | cs => readWord cs

def readItems (fuel : Nat) (done : List Json) (cs : List Char) : Option (Json × List Char) :=
  match fuel with
  | 0 => none
  | fuel + 1 =>
    match readValue fuel cs with
    | none => none
    | some (j, rest) =>
      match skipSpace rest with
      | ',' :: rest => readItems fuel (j :: done) rest
      | ']' :: rest => some (.arr (j :: done).reverse, rest)
      | _ => none

def readMembers (fuel : Nat) (done : List (String × Json)) (cs : List Char) :
    Option (Json × List Char) :=
  match fuel with
  | 0 => none
  | fuel + 1 =>
    match readKey cs with
    | none => none
    | some (key, rest) =>
      match readValue fuel rest with
      | none => none
      | some (j, rest) =>
        match skipSpace rest with
        | ',' :: rest => readMembers fuel ((key, j) :: done) rest
        | '\x7d' :: rest => some (.obj ((key, j) :: done).reverse, rest)
        | _ => none

end

def parse? (s : String) : Option Json :=
  let cs := s.toList
  match readValue (cs.length + 1) cs with
  | some (j, rest) => if (skipSpace rest).isEmpty then some j else none
  | none => none

end CodeChunks.Json
