import CodeChunks.Entries

namespace CodeChunks.Batch

structure Stats where
  files : Nat := 0
  skipped : Nat := 0
  failed : Nat := 0
  chunks : Nat := 0
  totalLines : Nat := 0
  timeMs : Nat := 0
  languages : Entries Nat := .empty
  errors : List String := []
  deriving DecidableEq, Repr

namespace Stats

def addFile (s : Stats) (language : String) (lines : Nat) : Stats :=
  { s with
    files := s.files + 1
    totalLines := s.totalLines + lines
    languages := s.languages.modify language fun n => n.getD 0 + 1 }

def addChunks (s : Stats) (count : Nat) : Stats := { s with chunks := s.chunks + count }

def addSkipped (s : Stats) : Stats := { s with skipped := s.skipped + 1 }

def addError (s : Stats) (error : String) : Stats :=
  { s with failed := s.failed + 1, errors := s.errors ++ [error] }

def totalFiles (s : Stats) : Nat := s.files + s.skipped + s.failed

end Stats

end CodeChunks.Batch
