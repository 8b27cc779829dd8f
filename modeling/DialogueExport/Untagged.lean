import DialogueExport.Event

/-!
# Lines without a line code

A line that was given a code of its own is found under the key `line:` with something behind it.
Any other key was made up from the position of the line and changes when the text is edited, so
such lines are exported under their raw keys and reported: each one, each file that has one,
and all those files after the run (section 4.3 of the specification).
-/

namespace DialogueExport

/-- What a key of the string table is (`LineKind`). -/
inductive KeyKind where
  /-- A line code: `line:` and at least one more character. -/
  | canonical
  | implicit
deriving DecidableEq

/-- What the key of a line with a code of its own starts with. -/
def KeyKind.mark : List Char := ['l', 'i', 'n', 'e', ':']

/-- What a key is (`is_canonical_line_code`). -/
def KeyKind.of (key : String) : KeyKind :=
  let s := key.toList
  if mark.isPrefixOf s && mark.length < s.length then canonical else implicit

namespace Untagged

/-- The entries without a line code, in order. -/
def select (entries : List (String × String)) : List (String × String) :=
  entries.filter fun e => KeyKind.of e.1 = .implicit

/-- What is reported of an entry (`check`). -/
def entryEvent (file : FilePath) (key text : String) : Event :=
  match KeyKind.of key with
  | .canonical => .tagged key text
  | .implicit => .untagged file key text

/-- What is reported of a file in which these entries have no line code (`finish`). -/
def fileEvents (file : FilePath) (entries : List (String × String)) : List Event :=
  if entries.isEmpty then [] else [.untaggedFile file entries.length]

/-- The files of a run in which some entries have no line code (`UntaggedSummary`). -/
structure Tally where
  files : List FilePath
deriving DecidableEq

namespace Tally

def empty : Tally := ⟨[]⟩

/-- Counts a file. -/
def record (t : Tally) (file : FilePath) (entries : List (String × String)) : Tally :=
  if entries.isEmpty then t else ⟨t.files ++ [file]⟩

def any (t : Tally) : Bool := !t.files.isEmpty

/-- What is reported after the run (`emit`). -/
def events (t : Tally) : List Event := if t.any then [.untaggedFiles t.files] else []

end Tally

end Untagged

end DialogueExport
