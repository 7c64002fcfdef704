namespace CodeChunks.Toml

inductive Origin where
  | header
  | implied
  | dotted
  | inline
  deriving DecidableEq, Repr

inductive Item where
  | str (s : String)
  | int (n : Int)
  | float (text : String)
  | bool (b : Bool)
  | moment (text : String)
  | array (items : List Item)
  | table (origin : Origin) (members : List (String × Item))
  | tables (elements : List Item)
  deriving Repr

abbrev Members := List (String × Item)

namespace Members

def find? (ms : Members) (key : String) : Option Item :=
  (List.find? (·.1 == key) ms).map (·.2)

def replace (ms : Members) (key : String) (item : Item) : Members :=
  ms.map fun old => if old.1 == key then (key, item) else old

def add (ms : Members) (key : String) (item : Item) : Option Members :=
  if (ms.find? key).isSome then none else some (ms ++ [(key, item)])

def inLast (f : Members → Option Members) (elements : List Item) : Option Item :=
  match elements.getLast? with
  | some (.table origin ms) =>
    (f ms).map fun ms => .tables (elements.dropLast ++ [.table origin ms])
  | _ => none

def addAt (key : String) (item : Item) : List String → Members → Option Members
  | [], ms => ms.add key item
  | k :: ks, ms =>
    match ms.find? k with
    | none => (addAt key item ks []).map fun sub => ms ++ [(k, .table .dotted sub)]
    | some (.table .dotted sub) =>
      (addAt key item ks sub).map fun sub => ms.replace k (.table .dotted sub)
    | some (.table .implied sub) =>
      if ks.isEmpty then none
      else (addAt key item ks sub).map fun sub => ms.replace k (.table .implied sub)
    | some (.tables elements) =>
      if ks.isEmpty then none else (inLast (addAt key item ks) elements).map (ms.replace k)
    | some _ => none

/-- Changes the members of the table that a header's path leads to; tables on the way come into
being, and of several tables the last is meant. -/
def alterAt (f : Members → Option Members) : List String → Members → Option Members
  | [], ms => f ms
  | k :: ks, ms =>
    match ms.find? k with
    | none => (alterAt f ks []).map fun sub => ms ++ [(k, .table .implied sub)]
    | some (.table .inline _) => none
    | some (.table origin sub) =>
      (alterAt f ks sub).map fun sub => ms.replace k (.table origin sub)
    | some (.tables elements) => (inLast (alterAt f ks) elements).map (ms.replace k)
    | some _ => none

def openTable (key : String) (ms : Members) : Option Members :=
  match ms.find? key with
  | none => some (ms ++ [(key, .table .header [])])
  | some (.table .implied sub) => some (ms.replace key (.table .header sub))
  | some _ => none

def openElement (key : String) (ms : Members) : Option Members :=
  match ms.find? key with
  | none => some (ms ++ [(key, .tables [.table .header []])])
  | some (.tables elements) => some (ms.replace key (.tables (elements ++ [.table .header []])))
  | some _ => none

end Members

structure Key where
  path : List String
  last : String
  deriving DecidableEq, Repr

def Key.names (k : Key) : List String := k.path ++ [k.last]

inductive Statement where
  | table (key : Key)
  | element (key : Key)
  | entry (key : Key) (item : Item)
  deriving Repr

structure Draft where
  header : List String := []
  members : Members := []

def Draft.add (d : Draft) : Statement → Option Draft
  | .table key =>
    (Members.alterAt (Members.openTable key.last) key.path d.members).map (⟨key.names, ·⟩)
  | .element key =>
    (Members.alterAt (Members.openElement key.last) key.path d.members).map (⟨key.names, ·⟩)
  | .entry key item =>
    (Members.alterAt (Members.addAt key.last item key.path) d.header d.members).map (⟨d.header, ·⟩)

def Members.ofStatements? (statements : List Statement) : Option Members :=
  (statements.foldlM Draft.add {}).map Draft.members

end CodeChunks.Toml
