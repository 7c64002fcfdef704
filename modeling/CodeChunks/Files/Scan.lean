import CodeChunks.Files.System
import CodeChunks.Registry

namespace CodeChunks.Files

structure ScanOptions where
  maxFileBytes : Nat := 1048576
  includeHidden : Bool := false

def ignoredScopes : List String :=
  [".git", ".hg", ".svn", ".idea", ".vscode", ".cache", "node_modules", ".next", ".turbo",
    ".parcel-cache", "build", "dist", "coverage", "target", "out", ".gradle", ".venv", "venv",
    ".tox", ".mypy_cache", ".pytest_cache", "__pycache__", "vendor", "third_party", "third-party"]

def namesScope : Path.Component → Bool
  | .name s => Text.lowercase s.display ∈ ignoredScopes
  | _ => false

def isIgnoredScope (path root : OsText) : Bool :=
  match Path.stripPrefix? (Path.components root) (Path.components path) with
  | some relative => relative.any namesScope
  | none => false

def isMinified (path : OsText) : Bool :=
  match (Path.fileName? path).bind OsText.text? with
  | some name =>
    let cs := (Text.lowercase name).toList
    ".min.js".toList.isSuffixOf cs || ".bundle.js".toList.isSuffixOf cs
  | none => false

def ScanOptions.walk (options : ScanOptions) : WalkOptions where
  hidden := !options.includeHidden
  gitIgnore := true
  gitGlobal := true
  gitExclude := true

/-- The path of a file that is worth chunking. A file that does not tell its size passes for
small. -/
def wanted? (r : Registry) (options : ScanOptions) : Except String Found → Option OsText
  | .error _ => none
  | .ok f =>
    if f.kind = some .file ∧ (r.resolve? f.path).isSome ∧ f.size.all (· ≤ options.maxFileBytes) ∧
        !isMinified f.path then
      some f.path
    else none

def scan (files : FileSystem) (r : Registry) (options : ScanOptions) (root : OsText) :
    List OsText :=
  let found := files.walk options.walk (fun path => !isIgnoredScope path root) root
  (found.filterMap (wanted? r options)).mergeSort Path.le

end CodeChunks.Files
