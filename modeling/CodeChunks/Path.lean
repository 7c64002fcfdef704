import CodeChunks.OsText

/-!
Paths as written. A path is read as its components; equal components mean equal paths, and paths
are ordered component by component.
-/

namespace CodeChunks.Path

inductive Component where
  | root
  | here
  | parent
  | name (s : OsText)
  deriving DecidableEq, Repr

def slash : UInt8 := 47

def dot : UInt8 := 46

def splitSlash : List UInt8 → List (List UInt8)
  | [] => [[]]
  | b :: bs =>
    if b = slash then [] :: splitSlash bs
    else
      match splitSlash bs with
      | [] => [[b]]
      | part :: parts => (b :: part) :: parts

def segments (path : OsText) : List OsText := (splitSlash path.bytes).map OsText.mk

def isAbsolute (path : OsText) : Bool := path.bytes.head? == some slash

/-- A dot counts only where it opens a relative path. -/
def Component.ofSegment? (s : OsText) : Option Component :=
  if s.bytes = [] ∨ s.bytes = [dot] then none
  else if s.bytes = [dot, dot] then some .parent
  else some (.name s)

def components (path : OsText) : List Component :=
  let parts := segments path
  let rest := parts.filterMap Component.ofSegment?
  if isAbsolute path then .root :: rest
  else if parts.head? = some ⟨[dot]⟩ then .here :: rest
  else rest

def Component.rank : Component → Nat
  | .root => 0
  | .here => 1
  | .parent => 2
  | .name _ => 3

def Component.cmp : Component → Component → Ordering
  | .name s, .name t => compare s.bytes t.bytes
  | a, b => compare a.rank b.rank

def cmpComponents : List Component → List Component → Ordering
  | [], [] => .eq
  | [], _ :: _ => .lt
  | _ :: _, [] => .gt
  | a :: as, b :: bs => (a.cmp b).then (cmpComponents as bs)

def cmp (p q : OsText) : Ordering := cmpComponents (components p) (components q)

def le (p q : OsText) : Bool := cmp p q != .gt

def stripPrefix? (root : List Component) (path : List Component) : Option (List Component) :=
  match root, path with
  | [], path => some path
  | _ :: _, [] => none
  | a :: root, b :: path => if a = b then stripPrefix? root path else none

def fileName? (path : OsText) : Option OsText :=
  match (components path).getLast? with
  | some (.name s) => some s
  | _ => none

def extensionOfName? (name : OsText) : Option OsText :=
  let (after, rest) := name.bytes.reverse.span (· ≠ dot)
  match rest with
  | [] => none
  | [_] => none
  | _ :: _ :: _ => some ⟨after.reverse⟩

def extension? (path : OsText) : Option OsText :=
  (fileName? path).bind extensionOfName?

def baseName (path : String) : String := ((fileName? path).bind OsText.text?).getD path

/-- A name below a directory. A slash at the end of the directory is the one between the two, and
nothing comes before a name where the directory is empty. -/
def child (dir name : OsText) : OsText :=
  if dir.bytes = [] ∨ dir.bytes.getLast? = some slash then ⟨dir.bytes ++ name.bytes⟩
  else ⟨dir.bytes ++ slash :: name.bytes⟩

def descend (path : OsText) (names : List OsText) : OsText := names.foldl child path

end CodeChunks.Path
