import DialogueExport.Export

/-!
# Arguments

The words of a command line are read from left to right.  The first word names the command; the
others are flags, options with a value, and inputs, in any order.

* A flag or an option may be given once.
* An option takes its value from the same word (`--name=value`, `-tvalue`, `-t=value`) or from
  the next one, which then may not look like a flag.  A word with a single dash may hold several
  flags and an option at its end.
* After a word `--` all words are inputs.
* A request for help or for the version is granted when it is met; faults after it do not
  count.
-/

namespace DialogueExport.CommandLine

/-! ## 1. Requests -/

/-- The two commands that work on programs (`Commands`). -/
inductive Command where
  | generate
  | inspect
deriving DecidableEq

/-- What was given behind a command. -/
structure Given where
  inputs : List String := []
  tag : Option String := none
  optionsSpeaker : Option String := none
  captureOptions : Bool := false
  abortOnDuplicate : Bool := false
  verbose : Bool := false
deriving DecidableEq

/-- Why the words are read no further. -/
inductive Stop where
  | help
  | version
  /-- The words make no request. -/
  | misuse
deriving DecidableEq

/-- What a command line asks for. -/
inductive Request where
  | generate (settings : Export.Settings) (inputs : List FilePath)
  | inspect (settings : ScanSettings) (verbose : Bool) (input : FilePath)

/-! ## 2. Flags and options -/

inductive Flag where
  | help
  | captureOptions
  | abortOnDuplicate
  | verbose
deriving DecidableEq

inductive Opt where
  | tag
  | optionsSpeaker
deriving DecidableEq

/-- What a name of a flag or an option stands for. -/
inductive Switch where
  | flag (f : Flag)
  | option (o : Opt)
deriving DecidableEq

/-- Long names.  Only what is exported can be selected by a tag. -/
def ofLongName? (command : Command) (name : String) : Option Switch :=
  if name = "help" then some (.flag .help)
  else if name = "capture-options" then some (.flag .captureOptions)
  else if name = "abort-on-duplicate" then some (.flag .abortOnDuplicate)
  else if name = "verbose" then some (.flag .verbose)
  else if name = "options-speaker" then some (.option .optionsSpeaker)
  else if name = "only-use-tag" ∧ command = .generate then some (.option .tag)
  else none

/-- Names of one letter. -/
def ofShortName? (command : Command) (c : Char) : Option Switch :=
  if c = 'h' then some (.flag .help)
  else if c = 'v' then some (.flag .verbose)
  else if c = 't' ∧ command = .generate then some (.option .tag)
  else none

namespace Given

/-- Gives a flag. -/
def addFlag (g : Given) : Flag → Except Stop Given
  | .help => .error .help
  | .captureOptions =>
    if g.captureOptions then .error .misuse else .ok { g with captureOptions := true }
  | .abortOnDuplicate =>
    if g.abortOnDuplicate then .error .misuse else .ok { g with abortOnDuplicate := true }
  | .verbose => if g.verbose then .error .misuse else .ok { g with verbose := true }

/-- Gives an option its value. -/
def addOption (g : Given) (value : String) : Opt → Except Stop Given
  | .tag => if g.tag.isSome then .error .misuse else .ok { g with tag := some value }
  | .optionsSpeaker =>
    if g.optionsSpeaker.isSome then .error .misuse
    else .ok { g with optionsSpeaker := some value }

/-- Gives an input.  It may not be empty, and an inspection has only one. -/
def addInput (g : Given) (command : Command) (word : String) : Except Stop Given :=
  if word = "" then .error .misuse
  else if command = .inspect ∧ g.inputs ≠ [] then .error .misuse
  else .ok { g with inputs := g.inputs ++ [word] }

end Given

/-! ## 3. Words -/

/-- What a word is by its first letters. -/
inductive Word where
  /-- The word `--`. -/
  | endOfFlags
  /-- A long name, with a value if there is an equals sign. -/
  | long (name : String) (value : Option String)
  /-- The letters behind a single dash. -/
  | letters (letters : List Char)
  | plain (word : String)
deriving DecidableEq

/-- A single dash alone is a plain word. -/
def Word.of (word : String) : Word :=
  match word.toList with
  | ['-', '-'] => .endOfFlags
  | '-' :: '-' :: r =>
    let name := String.ofList (r.takeWhile (· ≠ '='))
    match r.dropWhile (· ≠ '=') with
    | [] => .long name none
    | _ :: value => .long name (some (String.ofList value))
  | '-' :: c :: r => .letters (c :: r)
  | _ => .plain word

/-- Reads the letters behind a single dash.  An option takes the other letters as its value,
without an equals sign in front; if there are none it waits for the next word. -/
def readLetters (command : Command) (g : Given) : List Char → Except Stop (Given × Option Opt)
  | [] => .ok (g, none)
  | c :: r =>
    match ofShortName? command c with
    | none => .error .misuse
    | some (.flag f) => do
      let g ← g.addFlag f
      readLetters command g r
    | some (.option o) =>
      match r with
      | [] => .ok (g, some o)
      | '=' :: value => (g.addOption (String.ofList value) o).map fun g => (g, none)
      | value => (g.addOption (String.ofList value) o).map fun g => (g, none)

/-- Reads a long name. -/
def readLong (command : Command) (g : Given) (name : String) (value : Option String) :
    Except Stop (Given × Option Opt) :=
  match ofLongName? command name, value with
  | none, _ => .error .misuse
  | some (.flag _), some _ => .error .misuse
  | some (.flag f), none => (g.addFlag f).map fun g => (g, none)
  | some (.option o), some value => (g.addOption value o).map fun g => (g, none)
  | some (.option o), none => .ok (g, some o)

/-- Reads the words behind a command; `waiting` is an option that still needs its value. -/
def readWords (command : Command) (g : Given) (waiting : Option Opt) :
    List String → Except Stop Given
  | [] => if waiting.isSome then .error .misuse else .ok g
  | word :: words =>
    match waiting, Word.of word with
    | some o, .plain value => do
      let g ← g.addOption value o
      readWords command g none words
    | some _, _ => .error .misuse
    | none, .endOfFlags => words.foldlM (fun g w => g.addInput command w) g
    | none, .long name value => do
      let (g, waiting) ← readLong command g name value
      readWords command g waiting words
    | none, .letters letters => do
      let (g, waiting) ← readLetters command g letters
      readWords command g waiting words
    | none, .plain word => do
      let g ← g.addInput command word
      readWords command g none words

/-! ## 4. Command lines -/

namespace Given

/-- The settings of a scan that were given or have their default (`ScanArgs`). -/
def scanSettings (g : Given) : ScanSettings :=
  let d : ScanSettings := {}
  { optionsSpeaker := g.optionsSpeaker.getD d.optionsSpeaker
    captureOptions := g.captureOptions
    onRepeat := if g.abortOnDuplicate then .abort else .keepFirst }

/-- What was given as a request: there must be an input.  The settings of an export are put together
here, as `main` does it. -/
def request (g : Given) (command : Command) : Except Stop Request :=
  match command, g.inputs with
  | _, [] => .error .misuse
  | .generate, inputs =>
    .ok (.generate ⟨⟨g.tag⟩, g.verbose, g.scanSettings⟩ (inputs.map FilePath.mk))
  | .inspect, input :: _ => .ok (.inspect g.scanSettings g.verbose ⟨input⟩)

end Given

/-- The request behind a command. -/
def readCommand (command : Command) (words : List String) : Except Stop Request := do
  let g ← readWords command {} none words
  g.request command

/-- What the command `help` asks for: help about nothing or about one command. -/
def readHelp : List String → Stop
  | [] => .help
  | [topic] => if topic = "generate" ∨ topic = "inspect" ∨ topic = "help" then .help else .misuse
  | _ => .misuse

/-- The first letters behind a single dash in front of any command. -/
def readFirstLetter : List Char → Stop
  | 'h' :: _ => .help
  | 'V' :: _ => .version
  | _ => .misuse

/-- What a command line asks for. -/
def readRequest : List String → Except Stop Request
  | [] => .error .misuse
  | word :: words =>
    match Word.of word with
    | .endOfFlags => .error .misuse
    | .long name value =>
      .error <|
        if value.isSome then .misuse
        else if name = "help" then .help
        else if name = "version" then .version
        else .misuse
    | .letters letters => .error (readFirstLetter letters)
    | .plain name =>
      if name = "generate" then readCommand .generate words
      else if name = "inspect" then readCommand .inspect words
      else if name = "help" then .error (readHelp words)
      else .error .misuse

end DialogueExport.CommandLine
