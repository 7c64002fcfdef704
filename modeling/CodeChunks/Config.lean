import CodeChunks.Entries
import CodeChunks.Registry

namespace CodeChunks

structure Config where
  includeImports : Bool := true
  includeDetails : Bool := true
  supportedLanguages : List String := []
  extraExtensions : Entries String := .empty
  deriving DecidableEq, Repr

namespace Config

def minimal : Config := { includeImports := false, includeDetails := false }

def withoutDots (ext : String) : String := String.ofList (ext.toList.dropWhile (· == '.'))

inductive Fault where
  | unknownSupported (name : String)
  | emptyExtension
  | unknownMapping (ext name : String)
  deriving DecidableEq, Repr

def Fault.message : Fault → String
  | .unknownSupported name => "unknown language in supported_languages: " ++ name
  | .emptyExtension => "extra_extensions contains an empty extension"
  | .unknownMapping ext name => "extension ." ++ ext ++ " maps to unknown language " ++ name

def supportedFault? (name : String) : Option Fault :=
  if (Language.ofName? name).isNone then some (.unknownSupported name) else none

def mappingFault? (entry : String × String) : Option Fault :=
  let ext := withoutDots entry.1
  if ext = "" then some .emptyExtension
  else if (Language.ofName? entry.2).isNone then some (.unknownMapping ext entry.2)
  else none

def fault? (c : Config) : Option Fault :=
  (c.supportedLanguages.findSome? supportedFault?).or
    (c.extraExtensions.toList.findSome? mappingFault?)

def validate (c : Config) : Except ChunkError Unit :=
  match c.fault? with
  | some fault => .error (.invalidConfig fault.message)
  | none => .ok ()

def allows (c : Config) (l : Language) : Bool :=
  c.supportedLanguages.isEmpty || c.supportedLanguages.any (Language.ofName? · == some l)

def normalize (key : String) : String := Text.lowercase (withoutDots key)

def override? (entry : String × String) : Option (String × Policy) :=
  (Language.ofName? entry.2).map fun l => (normalize entry.1, .ofLanguage l)

def overrides (c : Config) : List (String × Policy) := c.extraExtensions.toList.filterMap override?

def registry (c : Config) : Registry := .ofExtensions c.overrides

end Config

end CodeChunks
