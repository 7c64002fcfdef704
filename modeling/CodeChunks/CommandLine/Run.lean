import CodeChunks.Batch.Summary
import CodeChunks.CommandLine.Help
import CodeChunks.Json.Printer
import CodeChunks.Wire.Toml

namespace CodeChunks.CommandLine

open Batch

structure Host where
  files : Files.FileSystem
  parsers : ParserLibrary
  concurrency : Option String := none
  processors : Nat := 1

structure Outcome where
  code : Nat
  stdout : String := ""
  stderr : String := ""
  deriving DecidableEq, Repr

structure Failure where
  message : String
  causes : List String
  deriving DecidableEq, Repr

def moveIn (margin : String) (s : String) : String :=
  String.join (s.toList.map fun c => if c = '\n' then "\n" ++ margin else c.toString)

def numberedCause (cause : String × Nat) : String :=
  "\n" ++ Text.padLeft 5 (toString cause.2) ++ ": " ++ moveIn "       " cause.1

def Failure.causeLines : List String → String
  | [] => ""
  | [cause] => "\n\nCaused by:\n    " ++ moveIn "    " cause
  | causes => "\n\nCaused by:" ++ String.join (causes.zipIdx.map numberedCause)

def Failure.report (f : Failure) : String :=
  "Error: " ++ f.message ++ Failure.causeLines f.causes ++ "\n"

def loadSettings (files : Files.FileSystem) : Option String → Except Failure Settings
  | none => .ok {}
  | some path =>
    match files.readText path with
    | .error e => .error ⟨"Failed to read config " ++ path, [e.message]⟩
    | .ok text =>
      match Settings.ofToml? text with
      | none => .error ⟨"Invalid config " ++ path, ["TOML parse error"]⟩
      | some settings => .ok settings

def Invocation.override (i : Invocation) (s : Settings) : Settings :=
  { chunker :=
      { s.chunker with
        includeImports := s.chunker.includeImports && !i.minimal
        includeDetails := s.chunker.includeDetails && !i.minimal
        supportedLanguages :=
          if i.languages.isEmpty then s.chunker.supportedLanguages else i.languages }
    concurrency := i.concurrency.or s.concurrency
    maxFileBytes := i.maxFileBytes.getD s.maxFileBytes }

def Invocation.processor (i : Invocation) (h : Host) : Except Failure Processor := do
  let settings := i.override (← loadSettings h.files i.config)
  (Processor.new settings h.concurrency h.processors).mapError fun e =>
    ⟨"Invalid configuration", e.chain⟩

def Invocation.perform (i : Invocation) (h : Host) : Except Failure Output := do
  let p ← i.processor h
  match i.command with
  | .chunk paths => return p.processBatch h.files h.parsers (paths.map OsText.ofString)
  | .scan root =>
    (p.processDirectory h.files h.parsers root).mapError fun e =>
      ⟨"Failed to scan " ++ root, e.chain⟩

def Invocation.run (i : Invocation) (h : Host) : Outcome :=
  match i.perform h with
  | .error f => { code := 1, stderr := f.report }
  | .ok output =>
    if i.json then { code := 0, stdout := output.toJson.pretty ++ "\n" }
    else { code := 0, stderr := output.summary }

def Halt.outcome : Halt → Outcome
  | .help topic => { code := 0, stdout := topic.text }
  | .version => { code := 0, stdout := versionText }
  | .usage e =>
    { code := 2
      stderr := "error: " ++ e.message ++ "\n\nFor more information, try '--help'.\n" }

def run (h : Host) (args : List String) : Outcome :=
  match Invocation.ofArguments args with
  | .error halt => halt.outcome
  | .ok i => i.run h

end CodeChunks.CommandLine
