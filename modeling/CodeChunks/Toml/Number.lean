import CodeChunks.Text.Decimal
import CodeChunks.Toml.Table

namespace CodeChunks.Toml

open Text

def moreDigits (base : Nat) : List Char → Option (List Char × List Char)
  | [] => some ([], [])
  | '_' :: c :: cs =>
    if isDigitIn base c then (moreDigits base cs).map fun (ds, rest) => (c :: ds, rest) else none
  | c :: cs =>
    if c = '_' then none
    else if isDigitIn base c then (moreDigits base cs).map fun (ds, rest) => (c :: ds, rest)
    else some ([], c :: cs)

def readDigits (base : Nat) : List Char → Option (List Char × List Char)
  | c :: cs =>
    if isDigitIn base c then (moreDigits base cs).map fun (ds, rest) => (c :: ds, rest) else none
  | [] => none

def readWhole : List Char → Option (List Char × List Char)
  | '0' :: cs => some (['0'], cs)
  | cs => readDigits 10 cs

def readSign : List Char → List Char × List Char
  | '+' :: cs => (['+'], cs)
  | '-' :: cs => (['-'], cs)
  | cs => ([], cs)

def readFraction : List Char → Option (Option (List Char) × List Char)
  | '.' :: cs => (readDigits 10 cs).map fun (ds, rest) => (some ds, rest)
  | cs => some (none, cs)

def readExponent : List Char → Option (Option Int × List Char)
  | c :: cs =>
    if c = 'e' ∨ c = 'E' then
      let (sign, rest) := readSign cs
      (readDigits 10 rest).map fun (ds, rest) =>
        let n : Int := digitsValue 10 ds
        (some (if sign = ['-'] then -n else n), rest)
    else some (none, c :: cs)
  | [] => some (none, [])

/-- Halfway from the largest double to the next power of two; numbers from here on are rounded to
infinity. -/
def infinityBound : Nat := Nat.pow 2 1024 - Nat.pow 2 970

def isInfinite (digits : List Char) (exponent : Int) : Bool :=
  let m := digitsValue 10 digits
  if m = 0 then false
  else if 310 ≤ exponent then true
  else if 0 ≤ exponent then infinityBound ≤ m * Nat.pow 10 exponent.toNat
  else if (-exponent).toNat ≤ digits.length then infinityBound * Nat.pow 10 (-exponent).toNat ≤ m
  else false

def int? (n : Int) : Option Item :=
  if -9223372036854775808 ≤ n ∧ n ≤ 9223372036854775807 then some (.int n) else none

def readBased (base : Nat) (cs : List Char) : Option (Item × List Char) := do
  let (digits, rest) ← readDigits base cs
  return (← int? (digitsValue base digits), rest)

def exponentText : Option Int → List Char
  | some n => 'e' :: (toString n).toList
  | none => []

/-- A decimal number, its sign read before. A number that is too large to be finite is refused,
unless it is negative. -/
def readDecimal (sign : List Char) (cs : List Char) : Option (Item × List Char) := do
  let (whole, rest) ← readWhole cs
  let (fraction, rest) ← readFraction rest
  let (exponent, rest) ← readExponent rest
  if fraction.isNone ∧ exponent.isNone then
    let n : Int := digitsValue 10 whole
    return (← int? (if sign = ['-'] then -n else n), rest)
  else
    let decimals := fraction.getD []
    guard (sign = ['-'] || !isInfinite (whole ++ decimals) (exponent.getD 0 - decimals.length))
    let text := sign ++ whole ++ '.' :: decimals ++ exponentText exponent
    return (.float (String.ofList text), rest)

def readNumber : List Char → Option (Item × List Char)
  | '0' :: 'x' :: cs => readBased 16 cs
  | '0' :: 'o' :: cs => readBased 8 cs
  | '0' :: 'b' :: cs => readBased 2 cs
  | cs =>
    match readSign cs with
    | (sign, 'i' :: 'n' :: 'f' :: rest) => some (.float (String.ofList sign ++ "inf"), rest)
    | (sign, 'n' :: 'a' :: 'n' :: rest) => some (.float (String.ofList sign ++ "nan"), rest)
    | (sign, rest) => readDecimal sign rest

end CodeChunks.Toml
