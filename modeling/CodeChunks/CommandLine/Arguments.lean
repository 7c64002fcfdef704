import CodeChunks.Text.Decimal

/-!
Arguments of the command line. Words are read one after the other: options before the command are
read on a level of their own, those after it on the level of the command, and the first word that
asks for help or makes no sense ends the reading.
-/

namespace CodeChunks.CommandLine

inductive CommandName where
  | chunk
  | scan
  deriving DecidableEq, Repr

def CommandName.ofString? : String → Option CommandName
  | "chunk" => some .chunk
  | "scan" => some .scan
  | _ => none

inductive Topic where
  | program
  | command (name : CommandName)
  | help
  deriving DecidableEq, Repr

def Topic.below? : Topic → String → Option Topic
  | .program, "help" => some .help
  | .program, word => (CommandName.ofString? word).map .command
  | _, _ => none

inductive Switch where
  | verbose
  | quiet
  | json
  | minimal
  | help
  | version
  deriving DecidableEq, Repr

inductive Setting where
  | config
  | concurrency
  | maxFileBytes
  | language
  deriving DecidableEq, Repr

inductive OptionName where
  | switch (s : Switch)
  | setting (s : Setting)
  deriving DecidableEq, Repr

inductive UsageError where
  | unknownOption (word : String)
  | unknownCommand (word : String)
  | unexpectedOperand (word : String)
  | missingValue (setting : Setting)
  | unneededValue (switch : Switch)
  | invalidValue (setting : Setting) (value : String)
  | repeated (option : OptionName)
  | emptyPath
  | missingCommand
  | missingPaths
  deriving DecidableEq, Repr

def Switch.name : Switch → String
  | .verbose => "--verbose"
  | .quiet => "--quiet"
  | .json => "--json"
  | .minimal => "--minimal"
  | .help => "--help"
  | .version => "--version"

def Setting.name : Setting → String
  | .config => "--config"
  | .concurrency => "--concurrency"
  | .maxFileBytes => "--max-file-bytes"
  | .language => "--language"

def OptionName.name : OptionName → String
  | .switch s => s.name
  | .setting s => s.name

def UsageError.message : UsageError → String
  | .unknownOption word => "unexpected argument '" ++ word ++ "' found"
  | .unknownCommand word => "unrecognized subcommand '" ++ word ++ "'"
  | .unexpectedOperand word => "unexpected argument '" ++ word ++ "' found"
  | .missingValue s => "a value is required for '" ++ s.name ++ "' but none was supplied"
  | .unneededValue s => "unexpected value for '" ++ s.name ++ "' found; no more were expected"
  | .invalidValue s value => "invalid value '" ++ value ++ "' for '" ++ s.name ++ "'"
  | .repeated o => "the argument '" ++ o.name ++ "' cannot be used multiple times"
  | .emptyPath => "a value is required for a path but none was supplied"
  | .missingCommand => "'semchunk' requires a subcommand but one was not provided"
  | .missingPaths => "the following required arguments were not provided: <PATHS>..."

inductive Halt where
  | help (topic : Topic)
  | version
  | usage (error : UsageError)
  deriving DecidableEq, Repr

structure Level where
  switches : List Switch := []
  config : Option String := none
  concurrency : Option Nat := none
  maxFileBytes : Option Nat := none
  languages : List String := []
  operands : List String := []
  deriving DecidableEq, Repr

def once (s : Setting) (text : String) (old new : Option α) : Except Halt α :=
  match old, new with
  | some _, _ => .error (.usage (.repeated (.setting s)))
  | none, none => .error (.usage (.invalidValue s text))
  | none, some a => .ok a

/-- Only languages may be given more than once; a file of settings has a name that is not empty. -/
def Level.set (l : Level) (s : Setting) (text : String) : Except Halt Level :=
  match s with
  | .config =>
    (once s text l.config (if text = "" then none else some text)).map
      fun path => { l with config := some path }
  | .concurrency =>
    (once s text l.concurrency (Text.readCount? text)).map
      fun n => { l with concurrency := some n }
  | .maxFileBytes =>
    (once s text l.maxFileBytes (Text.readCount? text)).map
      fun n => { l with maxFileBytes := some n }
  | .language => .ok { l with languages := l.languages ++ [text] }

inductive Scope where
  | program
  | command (name : CommandName)
  | help (topic : Topic)
  deriving DecidableEq, Repr

namespace Scope

def topic : Scope → Topic
  | .program => .program
  | .command name => .command name
  | .help topic => topic

def isCommand : Scope → Bool
  | .command _ => true
  | _ => false

def long? (s : Scope) : String → Option OptionName
  | "verbose" => some (.switch .verbose)
  | "quiet" => some (.switch .quiet)
  | "config" => some (.setting .config)
  | "help" => some (.switch .help)
  | "version" => if s.isCommand then none else some (.switch .version)
  | "json" => if s.isCommand then some (.switch .json) else none
  | "minimal" => if s.isCommand then some (.switch .minimal) else none
  | "concurrency" => if s.isCommand then some (.setting .concurrency) else none
  | "max-file-bytes" => if s.isCommand then some (.setting .maxFileBytes) else none
  | "language" => if s.isCommand then some (.setting .language) else none
  | _ => none

def short? (s : Scope) : Char → Option Switch
  | 'v' => some .verbose
  | 'h' => some .help
  | 'V' => if s.isCommand then none else some .version
  | _ => none

end Scope

inductive Word where
  | endOfOptions
  | long (name : String) (value : Option String)
  | short (letters : List Char)
  | plain (s : String)
  deriving DecidableEq, Repr

def Word.ofLong (cs : List Char) : Word :=
  match cs.span (· ≠ '=') with
  | (name, _ :: value) => .long (String.ofList name) (some (String.ofList value))
  | (name, []) => .long (String.ofList name) none

def Word.ofString (s : String) : Word :=
  match s.toList with
  | ['-', '-'] => .endOfOptions
  | '-' :: '-' :: cs => .ofLong cs
  | '-' :: c :: cs => .short (c :: cs)
  | _ => .plain s

structure Progress where
  scope : Scope := .program
  before : Level := {}
  level : Level := {}
  pending : Option Setting := none
  operandsOnly : Bool := false

namespace Progress

def turnOn (p : Progress) (s : Switch) : Except Halt Progress :=
  match s with
  | .help => .error (.help p.scope.topic)
  | .version => .error .version
  | s =>
    if s ∈ p.level.switches then .error (.usage (.repeated (.switch s)))
    else .ok { p with level := { p.level with switches := p.level.switches ++ [s] } }

def set (p : Progress) (s : Setting) (text : String) : Except Halt Progress :=
  (p.level.set s text).map fun level => { p with level, pending := none }

def long (p : Progress) (name : String) (value : Option String) : Except Halt Progress :=
  match p.scope.long? name, value with
  | none, _ => .error (.usage (.unknownOption ("--" ++ name)))
  | some (.switch s), none => p.turnOn s
  | some (.switch s), some _ => .error (.usage (.unneededValue s))
  | some (.setting s), none => .ok { p with pending := some s }
  | some (.setting s), some value => p.set s value

def short (p : Progress) (letter : Char) : Except Halt Progress :=
  match p.scope.short? letter with
  | some s => p.turnOn s
  | none => .error (.usage (.unknownOption (String.ofList ['-', letter])))

def operand (p : Progress) (word : String) : Except Halt Progress :=
  match p.scope with
  | .command name =>
    if name = .scan ∧ p.level.operands ≠ [] then .error (.usage (.unexpectedOperand word))
    else if word = "" then .error (.usage .emptyPath)
    else .ok { p with level := { p.level with operands := p.level.operands ++ [word] } }
  | _ => .error (.usage (.unexpectedOperand word))

def plain (p : Progress) (word : String) : Except Halt Progress :=
  match p.scope with
  | .program =>
    if word = "help" then .ok { p with scope := .help .program }
    else
      match CommandName.ofString? word with
      | some name => .ok { scope := .command name, before := p.level }
      | none => .error (.usage (.unknownCommand word))
  | _ => p.operand word

def read (p : Progress) (word : String) : Except Halt Progress :=
  if p.operandsOnly then p.operand word
  else
    match p.pending, Word.ofString word with
    | some s, .plain value => p.set s value
    | some s, _ => .error (.usage (.missingValue s))
    | none, .endOfOptions => .ok { p with operandsOnly := true }
    | none, .long name value => p.long name value
    | none, .short letters => letters.foldlM short p
    | none, .plain word => p.plain word

def step (p : Progress) (word : String) : Except Halt Progress :=
  match p.scope with
  | .help topic =>
    match topic.below? word with
    | some topic => .ok { p with scope := .help topic }
    | none => .error (.usage (.unknownCommand word))
  | _ => p.read word

end Progress

inductive Command where
  | chunk (paths : List String)
  | scan (root : String)
  deriving DecidableEq, Repr

structure Invocation where
  command : Command
  config : Option String := none
  json : Bool := false
  minimal : Bool := false
  concurrency : Option Nat := none
  maxFileBytes : Option Nat := none
  languages : List String := []
  deriving DecidableEq, Repr

def Invocation.ofLevels (command : Command) (before level : Level) : Invocation :=
  { command
    config := level.config.or before.config
    json := .json ∈ level.switches
    minimal := .minimal ∈ level.switches
    concurrency := level.concurrency
    maxFileBytes := level.maxFileBytes
    languages := level.languages }

def Progress.finish (p : Progress) : Except Halt Invocation :=
  match p.pending, p.scope with
  | some s, _ => .error (.usage (.missingValue s))
  | none, .program => .error (.usage .missingCommand)
  | none, .help topic => .error (.help topic)
  | none, .command .chunk =>
    if p.level.operands = [] then .error (.usage .missingPaths)
    else .ok (.ofLevels (.chunk p.level.operands) p.before p.level)
  | none, .command .scan => .ok (.ofLevels (.scan (p.level.operands.headD ".")) p.before p.level)

def Invocation.ofArguments (args : List String) : Except Halt Invocation := do
  (← args.foldlM Progress.step {}).finish

end CodeChunks.CommandLine
