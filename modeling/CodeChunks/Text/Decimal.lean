namespace CodeChunks.Text

def digitValue? (c : Char) : Option Nat :=
  if '0' ≤ c ∧ c ≤ '9' then some (c.toNat - '0'.toNat)
  else if 'a' ≤ c ∧ c ≤ 'z' then some (c.toNat - 'a'.toNat + 10)
  else if 'A' ≤ c ∧ c ≤ 'Z' then some (c.toNat - 'A'.toNat + 10)
  else none

def isDigitIn (base : Nat) (c : Char) : Bool :=
  match digitValue? c with
  | some n => n < base
  | none => false

def digitsValue (base : Nat) (digits : List Char) : Nat :=
  digits.foldl (fun n c => n * base + (digitValue? c).getD 0) 0

def takeDigits? (base count : Nat) (cs : List Char) : Option (List Char × List Char) :=
  let digits := cs.take count
  if digits.length = count ∧ digits.all (isDigitIn base) then some (digits, cs.drop count) else none

def withoutPlus : List Char → List Char
  | '+' :: cs => cs
  | cs => cs

def wordLimit : Nat := 18446744073709551616

def readCount? (s : String) : Option Nat :=
  let digits := withoutPlus s.toList
  if !digits.isEmpty && digits.all (isDigitIn 10) && digitsValue 10 digits < wordLimit then
    some (digitsValue 10 digits)
  else none

end CodeChunks.Text
