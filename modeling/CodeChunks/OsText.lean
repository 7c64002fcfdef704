import CodeChunks.Text.Lines

namespace CodeChunks

@[ext]
structure OsText where
  bytes : List UInt8
  deriving DecidableEq, Repr

namespace OsText

def ofString (s : String) : OsText := ⟨Text.bytes s⟩

instance : Coe String OsText := ⟨ofString⟩

def text? (t : OsText) : Option String := String.fromUTF8? ⟨t.bytes.toArray⟩

def isContinuation (b : UInt8) : Bool := 0x80 ≤ b && b ≤ 0xBF

def isSecond (a b : UInt8) : Bool :=
  if a = 0xE0 then 0xA0 ≤ b && b ≤ 0xBF
  else if a = 0xED then 0x80 ≤ b && b ≤ 0x9F
  else if a = 0xF0 then 0x90 ≤ b && b ≤ 0xBF
  else if a = 0xF4 then 0x80 ≤ b && b ≤ 0x8F
  else 0xE1 ≤ a && a ≤ 0xF3 && isContinuation b

/-- How many of the bytes after `a` go with it into one replacement character: as many as a
character could still begin with. -/
def brokenTail (a : UInt8) : List UInt8 → Nat
  | [] => 0
  | b :: bs =>
    if !isSecond a b then 0
    else if a < 0xF0 then 1
    else if bs.head?.any isContinuation then 2 else 1

def replacement : Char := '\uFFFD'

def headChar? (bs : List UInt8) : Option Char :=
  (bs.take 4).toByteArray.utf8DecodeChar? 0

/-- `skip` bytes belong to the character that was read last. -/
def lossyChars (skip : Nat) : List UInt8 → List Char
  | [] => []
  | b :: bs =>
    match skip with
    | skip + 1 => lossyChars skip bs
    | 0 =>
      match headChar? (b :: bs) with
      | some c => c :: lossyChars (c.utf8Size - 1) bs
      | none => replacement :: lossyChars (brokenTail b bs) bs

/-- The text for people: what is no UTF-8 is shown as replacement characters. -/
def display (t : OsText) : String := String.ofList (lossyChars 0 t.bytes)

instance : ToString OsText := ⟨display⟩

end OsText

end CodeChunks
