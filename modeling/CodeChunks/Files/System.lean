import CodeChunks.Error
import CodeChunks.Path

/-!
File systems as a program meets them: what is told of a path, what a file holds, and walks through
directories. How a walk is made is not known here.
-/

namespace CodeChunks.Files

structure FileInfo where
  isDirectory : Bool
  size : Nat
  deriving DecidableEq, Repr

inductive FileKind where
  | file
  | directory
  | other
  deriving DecidableEq, Repr

/-- What a walk comes to: its path, and its kind and size where these can be asked for. -/
structure Found where
  path : OsText
  kind : Option FileKind
  size : Option Nat
  deriving DecidableEq, Repr

structure WalkOptions where
  hidden : Bool
  gitIgnore : Bool
  gitGlobal : Bool
  gitExclude : Bool
  deriving DecidableEq, Repr

/-- A walk passes by what it is not to keep, with all that is below. -/
abbrev Walker := WalkOptions → (keep : OsText → Bool) → (root : OsText) → List (Except String Found)

structure FileSystem where
  info : OsText → Except IoError FileInfo
  read : OsText → Except IoError ByteArray
  walk : Walker

namespace FileSystem

variable (files : FileSystem) (path : OsText)

def sizeOf : Except IoError Nat := (files.info path).map FileInfo.size

def isDirectory : Bool :=
  match files.info path with
  | .ok info => info.isDirectory
  | .error _ => false

def readText : Except IoError String := do
  match String.fromUTF8? (← files.read path) with
  | some text => .ok text
  | none => .error .invalidText

end FileSystem

end CodeChunks.Files
