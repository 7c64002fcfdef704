import CodeChunks.Extraction.PythonDetails
import CodeChunks.Extraction.ScriptDetails

namespace CodeChunks

open Syntax

/-- How a language's details are read, given a chunk root, the definition it wraps if any, and the
source. -/
def Language.details? : Language → Option (Site → Option Node → String → Option Details)
  | .javascript | .typescript => some Extraction.Script.details
  | .python => some Extraction.Python.details
  | .java => none

end CodeChunks
