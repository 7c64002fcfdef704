import CodeChunks.CommandLine.Arguments
import CodeChunks.Text.Padding

namespace CodeChunks.CommandLine

structure HelpLine where
  head : String
  about : String

def helpBlock (title : String) (lines : List HelpLine) : String :=
  let width := (lines.map (·.head.length)).foldl max 0
  "\n" ++ title ++ ":\n" ++
    String.join (lines.map fun l => "  " ++ Text.padRight width l.head ++ "  " ++ l.about ++ "\n")

def versionText : String := "semchunk 0.1.0\n"

def CommandName.about : CommandName → String
  | .chunk => "Chunk the given files"
  | .scan => "Scan a directory (.gitignore aware) and chunk every supported file"

def Topic.about : Topic → String
  | .program => "Split source files into semantic chunks for embedding"
  | .command name => name.about
  | .help => "Print this message or the help of the given subcommand(s)"

def Topic.usage : Topic → String
  | .program => "semchunk [OPTIONS] <COMMAND>"
  | .command .chunk => "semchunk chunk [OPTIONS] <PATHS>..."
  | .command .scan => "semchunk scan [OPTIONS] [DIR]"
  | .help => "semchunk help [COMMAND]..."

def verboseLine : HelpLine := ⟨"-v, --verbose", "Enable verbose logging"⟩

def quietLine : HelpLine := ⟨"    --quiet", "Quiet mode: log only warnings/errors"⟩

def configLine : HelpLine := ⟨"    --config <CONFIG>", "TOML file with batch/chunker settings"⟩

def helpOptionLine : HelpLine := ⟨"-h, --help", "Print help"⟩

def programOptions : List HelpLine :=
  [verboseLine, quietLine, configLine, helpOptionLine, ⟨"-V, --version", "Print version"⟩]

def commandOptions : List HelpLine :=
  [⟨"    --json", "Print the batch output as JSON on stdout"⟩,
    verboseLine,
    ⟨"    --concurrency <CONCURRENCY>", "Files chunked at once (overrides SEMCHUNK_CONCURRENCY)"⟩,
    quietLine,
    configLine,
    ⟨"    --max-file-bytes <MAX_FILE_BYTES>", "Skip files larger than this many bytes"⟩,
    ⟨"    --language <LANG>", "Only chunk these languages (repeatable)"⟩,
    ⟨"    --minimal", "Omit imports and details from chunk metadata"⟩,
    helpOptionLine]

def Topic.blocks : Topic → List (String × List HelpLine)
  | .program =>
    [("Commands",
        [⟨"chunk", CommandName.chunk.about⟩, ⟨"scan", CommandName.scan.about⟩,
          ⟨"help", Topic.help.about⟩]),
      ("Options", programOptions)]
  | .command .chunk =>
    [("Arguments", [⟨"<PATHS>...", "Source files"⟩]), ("Options", commandOptions)]
  | .command .scan =>
    [("Arguments", [⟨"[DIR]", "Project root [default: .]"⟩]), ("Options", commandOptions)]
  | .help => [("Arguments", [⟨"[COMMAND]...", "Print help for the subcommand(s)"⟩])]

def Topic.text (t : Topic) : String :=
  t.about ++ "\n\nUsage: " ++ t.usage ++ "\n" ++
    String.join (t.blocks.map fun (title, lines) => helpBlock title lines)

end CodeChunks.CommandLine
