import CodeChunks.Files.System

namespace CodeChunks.Files

inductive Entry where
  | file (content : ByteArray)
  | directory (entries : List (OsText × Entry))

namespace Entry

def emptyDirectory : Entry := .directory []

def isDirectory : Entry → Bool
  | .directory _ => true
  | .file _ => false

def size : Entry → Nat
  | .file content => content.size
  | .directory _ => 4096

def entries : Entry → List (OsText × Entry)
  | .directory es => es
  | .file _ => []

def get? (e : Entry) (name : OsText) : Option Entry :=
  (e.entries.find? (·.1 == name)).map (·.2)

def info (e : Entry) : FileInfo := ⟨e.isDirectory, e.size⟩

def read : Entry → Except IoError ByteArray
  | .directory _ => .error .isADirectory
  | .file content => .ok content

end Entry

structure Place where
  entry : Entry
  above : List (Entry × OsText) := []

namespace Place

def up (p : Place) : Place :=
  match p.above with
  | [] => p
  | (parent, _) :: above => ⟨parent, above⟩

def nameLimit : Nat := 255

/-- Follows the parts of a path. Only a directory has anything below it, a dot and an empty part
included. -/
def follow (p : Place) : List OsText → Except IoError Place
  | [] => .ok p
  | part :: parts =>
    if !p.entry.isDirectory then .error .notADirectory
    else if part.bytes = [] ∨ part.bytes = [Path.dot] then p.follow parts
    else if part.bytes = [Path.dot, Path.dot] then p.up.follow parts
    else if nameLimit < part.bytes.length then .error .nameTooLong
    else
      match p.entry.get? part with
      | some e => follow ⟨e, (p.entry, part) :: p.above⟩ parts
      | none => .error .notFound

end Place

structure Tree where
  top : List (OsText × Entry) := []
  workingDirectory : List OsText := []

namespace Tree

def pathLimit : Nat := 4095

def fits (path : OsText) : Bool := path.bytes.length ≤ pathLimit

def route (t : Tree) (path : OsText) : List OsText :=
  if Path.isAbsolute path then Path.segments path else t.workingDirectory ++ Path.segments path

def locate (t : Tree) (path : OsText) : Except IoError Place :=
  if 0 ∈ path.bytes then .error .nulInName
  else if path.bytes = [] then .error .notFound
  else if pathLimit < path.bytes.length then .error .nameTooLong
  else Place.follow ⟨.directory t.top, []⟩ (t.route path)

def info (t : Tree) (path : OsText) : Except IoError FileInfo :=
  (t.locate path).map (·.entry.info)

def read (t : Tree) (path : OsText) : Except IoError ByteArray := do
  (← t.locate path).entry.read

def namesOf (path : OsText) : List OsText :=
  (Path.components path).filterMap fun
    | .name s => some s
    | _ => none

def replaceIn (es : List (OsText × Entry)) (name : OsText) : Option Entry → List (OsText × Entry)
  | none => es.filter (·.1 != name)
  | some e =>
    if es.any (·.1 == name) then es.map fun old => if old.1 == name then (name, e) else old
    else es ++ [(name, e)]

def alter (f : Option Entry → Option Entry) : List OsText → Option Entry → Option Entry
  | [], e => f e
  | name :: names, e =>
    let es := (e.map Entry.entries).getD []
    some (.directory (replaceIn es name
      (alter f names ((es.find? (·.1 == name)).map (·.2)))))

def modify (t : Tree) (path : OsText) (f : Option Entry → Option Entry) : Tree :=
  let names := if Path.isAbsolute path then namesOf path else t.workingDirectory ++ namesOf path
  match alter f names (some (.directory t.top)) with
  | some e => { t with top := e.entries }
  | none => { t with top := [] }

def write (t : Tree) (path : OsText) (content : ByteArray) : Tree :=
  t.modify path fun _ => some (.file content)

def makeDirectory (t : Tree) (path : OsText) : Tree :=
  t.modify path fun
    | some e => if e.isDirectory then some e else some .emptyDirectory
    | none => some .emptyDirectory

def remove (t : Tree) (path : OsText) : Tree × Bool :=
  match t.locate path with
  | .ok p =>
    if p.entry.isDirectory then (t, false) else (t.modify path fun _ => none, true)
  | .error _ => (t, false)

end Tree

/-- What a walk leaves out of itself: whether the names that lead down from the root end at such an
entry, by its being a directory or not. -/
abbrev Exclusion :=
  WalkOptions → (root : OsText) → (names : List OsText) → (isDirectory : Bool) → Bool

/-- A walk that knows of hidden names and of no rules. -/
def leaveHidden : Exclusion := fun options _ names _ =>
  options.hidden && names.getLast?.any fun name => name.bytes.head? == some Path.dot

def Entry.found (e : Entry) (path : OsText) : Found where
  path := path
  kind := some (if e.isDirectory then .directory else .file)
  size := if Tree.fits path then some e.size else none

mutual

/-- What a walk comes to at and below an entry that it does not pass by itself. A directory whose
path is too long cannot be read. -/
def Entry.walk (excluded : List OsText → Bool → Bool) (keep : OsText → Bool) (path : OsText)
    (names : List OsText) : Entry → List (Except String Found)
  | .file content => [.ok ((Entry.file content).found path)]
  | .directory es =>
    .ok ((Entry.directory es).found path) ::
      if Tree.fits path then walkEntries excluded keep path names es
      else [.error IoError.nameTooLong.message]

def walkEntries (excluded : List OsText → Bool → Bool) (keep : OsText → Bool) (path : OsText)
    (names : List OsText) : List (OsText × Entry) → List (Except String Found)
  | [] => []
  | (name, e) :: es =>
    (if excluded (names ++ [name]) e.isDirectory || !keep (Path.child path name) then []
      else e.walk excluded keep (Path.child path name) (names ++ [name])) ++
      walkEntries excluded keep path names es

end

namespace Tree

def isStandardInput (root : OsText) : Bool := Path.components root = [.name "-"]

def walk (t : Tree) (exclusion : Exclusion) : Walker := fun options keep root =>
  if isStandardInput root then [.ok ⟨root, none, none⟩]
  else
    match t.locate root with
    | .ok p => p.entry.walk (exclusion options root) keep root []
    | .error e => [.error e.message]

def system (t : Tree) (exclusion : Exclusion) : FileSystem := ⟨t.info, t.read, t.walk exclusion⟩

end Tree

end CodeChunks.Files
