import CodeChunks.Text.Decimal

namespace CodeChunks.Toml

open Text

abbrev Piece := List Char × List Char

def readBounded (count lo hi : Nat) (cs : List Char) : Option Piece := do
  let (digits, rest) ← takeDigits? 10 count cs
  let n := digitsValue 10 digits
  if lo ≤ n ∧ n ≤ hi then some (digits, rest) else none

def readMark (mark : Char) : List Char → Option (List Char)
  | c :: cs => if c = mark then some cs else none
  | [] => none

def isLeapYear (year : Nat) : Bool := year % 4 == 0 && (year % 100 != 0 || year % 400 == 0)

def daysIn (year month : Nat) : Nat :=
  if month = 2 then if isLeapYear year then 29 else 28
  else if month ∈ [4, 6, 9, 11] then 30
  else 31

def readDate (cs : List Char) : Option Piece := do
  let (year, rest) ← readBounded 4 0 9999 cs
  let (month, rest) ← readBounded 2 1 12 (← readMark '-' rest)
  let days := daysIn (digitsValue 10 year) (digitsValue 10 month)
  let (day, rest) ← readBounded 2 1 days (← readMark '-' rest)
  return (year ++ '-' :: month ++ '-' :: day, rest)

def secondsFraction (digits : List Char) : List Char :=
  match ((digits.take 9).reverse.dropWhile (· == '0')).reverse with
  | [] => []
  | ds => '.' :: ds

def readSecondsFraction (cs : List Char) : Piece :=
  match cs with
  | '.' :: rest =>
    let digits := rest.takeWhile (isDigitIn 10)
    if digits.isEmpty then ([], cs) else (secondsFraction digits, rest.drop digits.length)
  | _ => ([], cs)

def readTime (cs : List Char) : Option Piece := do
  let (hour, rest) ← readBounded 2 0 23 cs
  let (minute, rest) ← readBounded 2 0 59 (← readMark ':' rest)
  let (second, rest) ← readBounded 2 0 60 (← readMark ':' rest)
  let (fraction, rest) := readSecondsFraction rest
  return (hour ++ ':' :: minute ++ ':' :: second ++ fraction, rest)

def readOffset : List Char → Option Piece
  | 'Z' :: rest | 'z' :: rest => some (['Z'], rest)
  | sign :: rest => do
    guard (sign = '+' || sign = '-')
    let (hour, rest) ← readBounded 2 0 23 rest
    let (minute, rest) ← readBounded 2 0 59 (← readMark ':' rest)
    let sign := if digitsValue 10 (hour ++ minute) = 0 then '+' else sign
    return (sign :: hour ++ ':' :: minute, rest)
  | [] => none

def readAfterDate : List Char → Option Piece
  | c :: cs => do
    guard (c = 'T' || c = 't' || c = ' ')
    let (time, rest) ← readTime cs
    let (offset, rest) := (readOffset rest).getD ([], rest)
    return ('T' :: time ++ offset, rest)
  | [] => none

def readMoment (cs : List Char) : Option (String × List Char) :=
  match readDate cs with
  | some (date, rest) =>
    let (time, rest) := (readAfterDate rest).getD ([], rest)
    some (String.ofList (date ++ time), rest)
  | none => (readTime cs).map fun (time, rest) => (String.ofList time, rest)

end CodeChunks.Toml
