import DialogueExport.CommandLine.Arguments
import DialogueExport.Inputs
import DialogueExport.Inspection
import DialogueExport.Text.Terminal

/-!
# Running a command line

A command line and a file system give an exit status, two texts and a new file system.  Events
go to the error stream, one line each and without orders to the terminal, unless they are below
the level that is asked for; an error is put there too, with all its causes.  Only an inspection
that succeeds writes to the output stream.
-/

namespace DialogueExport.CommandLine

/-! ## 1. Texts -/

/-- A text with blanks in front of it. -/
def padLeft (width : Nat) (s : String) : String :=
  String.ofList (List.replicate (width - s.length) ' ') ++ s

/-- An event as a line of the log. -/
def logLine (e : Event) : String :=
  padLeft 5 e.level.name ++ " " ++ e.origin.name ++ ": " ++ Text.withoutOrders e.message ++ "\n"

/-- The log of a run, with the level that `setup_logging` asks for. -/
def log (verbose : Bool) (events : List Event) : String :=
  String.join (((if verbose then Level.debug else Level.info).select events).map logLine)

/-- A cause with its lines indented; among several it has a number. -/
def causeText (number : Option Nat) (cause : String) : String :=
  let lines := (Text.split '\n' cause.toList).map String.ofList
  match number with
  | none => "    " ++ "\n    ".intercalate lines
  | some n => padLeft 5 (toString n) ++ ": " ++ "\n       ".intercalate lines

/-- An error with its causes, outermost first. -/
def errorText : List String → String
  | [] => ""
  | [error] => "Error: " ++ error ++ "\n"
  | [error, cause] =>
    "Error: " ++ error ++ "\n\nCaused by:\n" ++ causeText none cause ++ "\n"
  | error :: causes =>
    "Error: " ++ error ++ "\n\nCaused by:\n"
      ++ String.join (causes.zipIdx.map fun c => causeText (some c.2) c.1 ++ "\n")

/-- The lines of an inspection. -/
def inspectionText (i : Inspection) : String :=
  let lines :=
    ["Program Summary", "===============",
      "Nodes: " ++ toString i.nodes,
      "Instructions: " ++ toString i.instructions,
      "Strings: " ++ toString i.strings,
      "  with line codes: " ++ toString i.canonical,
      "  untagged: " ++ toString i.implicit,
      "", "Speakers", "--------"]
    ++ i.lines.map (fun l =>
      (if l.1 = "" then "(none)" else l.1) ++ ": " ++ toString l.2 ++ " lines")
    ++ if i.repeats.isEmpty then []
      else ["", "Duplicate line codes: " ++ ", ".intercalate i.repeats]
  String.join (lines.map (· ++ "\n"))

def versionText : String := "linetable 0.1.0\n"

/-- What help says of the commands.  It stands for the help of every command; what that says in detail
is no part of this library. -/
def helpText : String :=
  "Export dialogue lines with speaker attribution for translators\n\n"
    ++ "Usage: linetable <COMMAND>\n\n"
    ++ "Commands:\n"
    ++ "  generate  Write a <name>_lines.csv table beside each compiled program\n"
    ++ "  inspect   Summarize a compiled program without writing anything\n"
    ++ "  help      Print this message or the help of the given subcommand(s)\n\n"
    ++ "Options:\n"
    ++ "  -h, --help     Print help\n"
    ++ "  -V, --version  Print version\n"

/-- What is said of words that make no request, whatever is wrong with them. -/
def misuseText : String := "error: invalid arguments\n\nFor more information, try '--help'.\n"

/-! ## 2. Runs -/

/-- What a command line leaves behind. -/
structure Session where
  exit : Nat
  stdout : String
  stderr : String
  disk : FileSystem

/-- Exports the inputs, after all of them were checked (`generate`). -/
def generate (fs : FileSystem) (settings : Export.Settings) (inputs : List FilePath) : Session :=
  match fs.checkInputs inputs with
  | .error fault => ⟨1, "", errorText [fault.message], fs⟩
  | .ok () =>
    let run := Export.run settings fs inputs
    match run.outcome with
    | .error e =>
      ⟨1, "", log settings.verbose run.events
        ++ errorText ("Failed to generate line tables" :: e.chain), run.disk⟩
    | .ok summary =>
      let done := Event.completed summary.written.length summary.tally.files.length
      ⟨0, "", log settings.verbose (run.events ++ [done]), run.disk⟩

/-- The numbers of an input, or what is wrong, outermost first. -/
def inspection (fs : FileSystem) (settings : ScanSettings) (input : FilePath) :
    Logged (List String) Inspection :=
  match fs.checkInputs [input] with
  | .error fault => ⟨[], .error [fault.message]⟩
  | .ok () =>
    match fs.loadProgram input with
    | .error e => ⟨[.inspecting input], .error ("Failed to load program" :: e.chain)⟩
    | .ok p =>
      let i := Inspection.ofProgram p input settings
      ⟨.inspecting input :: i.events, i.outcome.mapError ExportError.chain⟩

/-- Inspects an input (`inspect`). -/
def inspect (fs : FileSystem) (settings : ScanSettings) (verbose : Bool) (input : FilePath) :
    Session :=
  let i := inspection fs settings input
  match i.outcome with
  | .ok numbers => ⟨0, inspectionText numbers, log verbose i.events, fs⟩
  | .error causes =>
    ⟨1, "", log verbose (i.events ++ [.inspectionFailed causes]) ++ errorText causes, fs⟩

/-- Runs a command line (`main`). -/
def run (fs : FileSystem) (words : List String) : Session :=
  match readRequest words with
  | .error .help => ⟨0, helpText, "", fs⟩
  | .error .version => ⟨0, versionText, "", fs⟩
  | .error .misuse => ⟨2, "", misuseText, fs⟩
  | .ok (.generate settings inputs) => generate fs settings inputs
  | .ok (.inspect settings verbose input) => inspect fs settings verbose input

end DialogueExport.CommandLine
