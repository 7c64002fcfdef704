import CodeChunks.Config

namespace CodeChunks.Batch

structure Settings where
  chunker : Config := {}
  concurrency : Option Nat := none
  maxFileBytes : Nat := 1048576
  deriving DecidableEq, Repr

def Settings.validate (s : Settings) : Except BatchError Unit :=
  match s.chunker.validate with
  | .error e => .error (.chunker e)
  | .ok () =>
    if s.concurrency = some 0 then .error (.other "concurrency must be at least 1")
    else if s.maxFileBytes = 0 then .error (.other "max_file_bytes must be positive")
    else .ok ()

end CodeChunks.Batch
