import DialogueExport.ExportError

/-!
# Events

What a run reports while it works.  An event is a value; its level, its origin and its text are
functions of it, so a statement about a report need not look into texts.  Sections 4.3 and 10.7 of the
specification say what is reported.
-/

namespace DialogueExport

/-- How grave an event is. -/
inductive Level where
  | error
  | warn
  | info
  | debug
deriving DecidableEq

namespace Level

/-- Smaller is graver. -/
def rank : Level → Nat
  | error => 0
  | warn => 1
  | info => 2
  | debug => 3

def name : Level → String
  | error => "ERROR"
  | warn => "WARN"
  | info => "INFO"
  | debug => "DEBUG"

end Level

/-- The part of the program that reports. -/
inductive Origin where
  | scan
  | table
  | output
  | untagged
  | run
  | commandLine
deriving DecidableEq

/-- The name of the part in a log line. -/
def Origin.name : Origin → String
  | scan => "linetable::stages::stage0_scan"
  | table => "linetable::stages::stage1_build"
  | output => "linetable::stages::stage2_export"
  | untagged => "linetable::filters::untagged"
  | run => "linetable::generate"
  | commandLine => "linetable"

/-- What is reported. -/
inductive Event where
  /-- A line is delivered that has no text. -/
  | noText (file : FilePath) (code : String)
  /-- A line is delivered again; the first time counts. -/
  | repeated (file : FilePath) (code : String)
  | spoken (code text speaker : String)
  | command (text : String)
  | enters (name : String)
  /-- The scan of a file is done. -/
  | scanned (file : FilePath) (nodes lines : Nat)
  /-- An entry of the string table under a line code. -/
  | tagged (key text : String)
  /-- An entry of the string table under another key. -/
  | untagged (file : FilePath) (key text : String)
  | untaggedFile (file : FilePath) (count : Nat)
  | untaggedFiles (files : List FilePath)
  | row (code text character : String)
  | writing (file : FilePath)
  | wrote (path : FilePath)
  | started
  | onlyTag (tag : String)
  | failed (error : ExportError)
  | inspecting (file : FilePath)
  /-- An inspection has failed, with all that lies behind it. -/
  | inspectionFailed (causes : List String)
  /-- So many tables are written, so many of them with lines without a line code. -/
  | completed (written flagged : Nat)
deriving DecidableEq

namespace Event

def level : Event → Level
  | failed _ | inspectionFailed _ => .error
  | noText _ _ | repeated _ _ | untagged _ _ _ | untaggedFile _ _ | untaggedFiles _ => .warn
  | wrote _ | onlyTag _ | inspecting _ | completed _ _ => .info
  | spoken _ _ _ | command _ | enters _ | scanned _ _ _ | tagged _ _ | row _ _ _ | writing _
  | started => .debug

def origin : Event → Origin
  | noText _ _ | repeated _ _ | spoken _ _ _ | command _ | enters _ => .scan
  | row _ _ _ => .table
  | writing _ | wrote _ => .output
  | tagged _ _ | untagged _ _ _ | untaggedFile _ _ | untaggedFiles _ => .untagged
  | started | onlyTag _ | scanned _ _ _ | failed _ => .run
  | inspecting _ | inspectionFailed _ | completed _ _ => .commandLine

/-- The advice after a run in which some lines had no line code (`UNTAGGED_RECOMMENDATION`). -/
def recommendation : String :=
  "Some lines were not tagged with a line code and were exported under their raw keys. "
    ++ "Regenerate these files with line tagging enabled to assign stable line codes:"

def message : Event → String
  | noText file code => file.text ++ ": line " ++ code ++ " is not in the string table"
  | repeated file code =>
    file.text ++ ": line " ++ code ++ " is emitted more than once; keeping the first occurrence"
  | spoken code text speaker =>
    "Getting Character Set - Key: " ++ code ++ " Value: " ++ text ++ " Character: " ++ speaker
  | command text => "Going through command: " ++ text
  | enters name => "Getting Character: " ++ name
  | scanned file nodes lines =>
    file.text ++ ": scanned " ++ toString nodes ++ " nodes, " ++ toString lines
      ++ " lines attributed"
  | tagged key text => "Entry - Key: " ++ key ++ " Value: " ++ text
  | untagged file key text =>
    file.text ++ ": untagged line - Key: " ++ key ++ " Value: " ++ text
  | untaggedFile file count =>
    "Untagged lines in " ++ file.text ++ " (" ++ toString count ++ " total)"
  | untaggedFiles files => recommendation ++ " " ++ ", ".intercalate (files.map FilePath.text)
  | row code text character =>
    "LocalizedLine - Code: " ++ code ++ " Text: " ++ text ++ " Character: " ++ character
  | writing file => "StartWriting: " ++ file.text
  | wrote path => "Wrote " ++ path.text
  | started => "Start"
  | onlyTag tag => "Only using lines from nodes tagged \"" ++ tag ++ "\""
  | failed error => error.message
  | inspecting file => "Inspecting program from " ++ Text.quoted file.text
  | inspectionFailed causes => ": ".intercalate causes
  | completed written flagged =>
    "Complete: " ++ toString written ++ " tables written"
      ++ (if flagged = 0 then "" else ", " ++ toString flagged ++ " with untagged lines")

end Event

/-- The events of a level or graver. -/
def Level.select (l : Level) (events : List Event) : List Event :=
  events.filter fun e => e.level.rank ≤ l.rank

end DialogueExport
