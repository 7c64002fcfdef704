import CodeChunks.Text.Decimal

namespace CodeChunks

inductive Json where
  | null
  | bool (b : Bool)
  | nat (n : Nat)
  | number (text : String)
  | str (s : String)
  | arr (items : List Json)
  | obj (members : List (String × Json))
  deriving Repr, Inhabited

namespace Json

def bool? : Json → Option Bool
  | .bool b => some b
  | _ => none

def nat? : Json → Option Nat
  | .nat n => if n < Text.wordLimit then some n else none
  | _ => none

def str? : Json → Option String
  | .str s => some s
  | _ => none

def list? (item? : Json → Option α) : Json → Option (List α)
  | .arr items => items.mapM item?
  | _ => none

def entries? (item? : Json → Option α) : Json → Option (List (String × α))
  | .obj members => members.mapM fun (key, j) => (item? j).map (key, ·)
  | _ => none

def nullable? (item? : Json → Option α) : Json → Option (Option α)
  | .null => some none
  | j => (item? j).map some

def choice? (ofName? : String → Option α) : Json → Option α
  | .str s => ofName? s
  | .obj [(s, .null)] => ofName? s
  | _ => none

def ofOption (toJson : α → Json) : Option α → Json
  | some a => toJson a
  | none => .null

def ofList (toJson : α → Json) (as : List α) : Json := .arr (as.map toJson)

def member? (j : Json) (name : String) : Option Json :=
  match j with
  | .obj members => (members.find? (·.1 == name)).map (·.2)
  | _ => none

inductive Fields where
  | named (members : List (String × Json))
  | listed (items : List Json)

def fields? (count : Nat) : Json → Option Fields
  | .obj members => some (.named members)
  | .arr items => if items.length ≤ count then some (.listed items) else none
  | _ => none

namespace Fields

def get? (f : Fields) (index : Nat) (name : String) : Option Json :=
  match f with
  | .named members => (members.find? (·.1 == name)).map (·.2)
  | .listed items => items[index]?

def required (f : Fields) (index : Nat) (name : String) (part? : Json → Option α) : Option α :=
  (f.get? index name).bind part?

def optional (f : Fields) (index : Nat) (name : String) (part? : Json → Option α) :
    Option (Option α) :=
  match f.get? index name, f with
  | some j, _ => nullable? part? j
  | none, .named _ => some none
  | none, .listed _ => none

def withDefault (f : Fields) (index : Nat) (name : String) (part? : Json → Option α)
    (default : α) : Option α :=
  match f.get? index name with
  | some j => part? j
  | none => some default

end Fields

end Json

end CodeChunks
