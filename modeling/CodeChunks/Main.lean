import CodeChunks.CommandLine.Run
import CodeChunks.Json.Parser
import CodeChunks.Wire.Workspace

namespace CodeChunks.CommandLine

def readHost (input : String) (concurrency : Option String) : Host :=
  let w := ((Json.parse? input).bind Workspace.ofJson?).getD .empty
  { files := w.files.system Files.leaveHidden, parsers := w.parsers, concurrency }

end CodeChunks.CommandLine

open CodeChunks.CommandLine in
def main (args : List String) : IO UInt32 := do
  let input ← (← IO.getStdin).readToEnd
  let outcome := run (readHost input (← IO.getEnv "SEMCHUNK_CONCURRENCY")) args
  (← IO.getStdout).putStr outcome.stdout
  (← IO.getStderr).putStr outcome.stderr
  return outcome.code.toUInt32
