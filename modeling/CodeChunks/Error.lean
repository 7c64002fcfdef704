namespace CodeChunks

inductive IoError where
  | notFound
  | notADirectory
  | isADirectory
  | nameTooLong
  | nulInName
  | invalidText
  | other (message : String)
  deriving DecidableEq, Repr

def IoError.message : IoError → String
  | .notFound => "No such file or directory (os error 2)"
  | .notADirectory => "Not a directory (os error 20)"
  | .isADirectory => "Is a directory (os error 21)"
  | .nameTooLong => "File name too long (os error 36)"
  | .nulInName => "file name contained an unexpected NUL byte"
  | .invalidText => "stream did not contain valid UTF-8"
  | .other message => message

inductive ChunkError where
  | unsupportedLanguage (language : String)
  | parse (reason : String) (line column : Nat)
  | invalidConfig (reason : String)
  | grammarRefused (reason : String)
  | io (error : IoError)
  deriving DecidableEq, Repr

namespace ChunkError

def message : ChunkError → String
  | .unsupportedLanguage language => "Unsupported language: " ++ language
  | .parse reason line column =>
    "Parse error at " ++ toString line ++ ":" ++ toString column ++ ": " ++ reason
  | .invalidConfig reason => "Invalid configuration: " ++ reason
  | .grammarRefused reason => "Tree-sitter error: " ++ reason
  | .io error => "IO error: " ++ error.message

def isUnsupported : ChunkError → Bool
  | .unsupportedLanguage _ => true
  | _ => false

def chain (e : ChunkError) : List String :=
  e.message ::
    match e with
    | .io error => [error.message]
    | _ => []

end ChunkError

inductive BatchError where
  | io (error : IoError)
  | chunker (error : ChunkError)
  | invalidPath (reason : String)
  | fileTooLarge (path : String) (size limit : Nat)
  | other (reason : String)
  deriving DecidableEq, Repr

namespace BatchError

def message : BatchError → String
  | .io error => "IO error: " ++ error.message
  | .chunker error => "Chunker error: " ++ error.message
  | .invalidPath reason => "Invalid path: " ++ reason
  | .fileTooLarge path size limit =>
    "File too large: " ++ path ++ " (" ++ toString size ++ " bytes, limit " ++ toString limit ++ ")"
  | .other reason => reason

def isSkip : BatchError → Bool
  | .chunker error => error.isUnsupported
  | _ => false

def chain (e : BatchError) : List String :=
  e.message ::
    match e with
    | .io error => [error.message]
    | .chunker error => error.chain
    | _ => []

end BatchError

end CodeChunks
