import DialogueExport.Text.Split

/-!
# Paths

A path is a text.  Slashes divide it into pieces; an empty piece and a piece `.` name nothing,
except that a `.` at the very front is a component of its own.  The last component, if it is
the name of something, is the file name, which is cut at its last dot into stem and extension.

The table of an input goes beside it: `outputFor` replaces the file name and keeps the text in
front of it as it was written.
-/

namespace DialogueExport

/-- A path as it was written. -/
structure FilePath where
  text : String
deriving DecidableEq

namespace FilePath

/-! ## 1. Components -/

/-- What a component of a path names. -/
inductive Component where
  | root
  /-- A `.` at the front. -/
  | current
  | parent
  | normal (name : List Char)
deriving DecidableEq

/-- The front of a path that is not divided: the root or a `.` of its own. -/
def head : List Char → List Char
  | '/' :: _ => ['/']
  | ['.'] => ['.']
  | '.' :: '/' :: _ => ['.']
  | _ => []

/-- The pieces behind the front. -/
def pieces (s : List Char) : List (List Char) := Text.split '/' (s.drop (head s).length)

/-- Whether a piece names nothing. -/
def isIdle (piece : List Char) : Bool := piece = [] || piece = ['.']

/-- The component that a piece is. -/
def Component.ofPiece? (piece : List Char) : Option Component :=
  if isIdle piece then none
  else if piece = ['.', '.'] then some .parent
  else some (.normal piece)

/-- The component that the front is. -/
def headComponents (s : List Char) : List Component :=
  if head s = ['/'] then [.root] else if head s = ['.'] then [.current] else []

def components (p : FilePath) : List Component :=
  let s := p.text.toList
  headComponents s ++ (pieces s).filterMap Component.ofPiece?

/-! ## 2. File names -/

/-- The name of the file, unless the path ends in something that is not a name. -/
def fileName? (p : FilePath) : Option (List Char) :=
  match p.components.getLast? with
  | some (.normal name) => some name
  | _ => none

/-- A name cut at its last dot, unless it has none but at its front. -/
def cutName (name : List Char) : List Char × Option (List Char) :=
  let extension := (name.reverse.takeWhile (· ≠ '.')).reverse
  let stem := name.take (name.length - extension.length - 1)
  if '.' ∈ name ∧ stem ≠ [] then (stem, some extension) else (name, none)

/-- The file name in front of its last dot; empty if there is no file name. -/
def stem (p : FilePath) : List Char := (p.fileName?.map fun n => (cutName n).1).getD []

/-- What follows the last dot of the file name. -/
def extension? (p : FilePath) : Option (List Char) := p.fileName?.bind fun n => (cutName n).2

/-! ## 3. The directory around a path -/

/-- The text in front of the file name, without the slashes and idle pieces before it. -/
def directoryText (s : List Char) : List Char :=
  let before := (((pieces s).reverse.dropWhile isIdle).drop 1).dropWhile isIdle
  head s ++ Text.join '/' before.reverse

/-- The path without its last component, if it has one that is not the root. -/
def parent? (p : FilePath) : Option FilePath :=
  match p.components with
  | [] | [.root] => none
  | [.current] => some ⟨""⟩
  | _ => some ⟨String.ofList (directoryText p.text.toList)⟩

/-! ## 4. The path of the table -/

/-- A name put behind a text, with a slash between them if one is needed. -/
def append (base name : List Char) : List Char :=
  if base = [] ∨ base.getLast? = some '/' then base ++ name else base ++ '/' :: name

/-- The path with another file name.  A path without one is kept whole. -/
def withFileName (p : FilePath) (name : List Char) : FilePath :=
  let s := p.text.toList
  ⟨String.ofList (append (if p.fileName?.isSome then directoryText s else s) name)⟩

/-- What the name of a table ends in (`OUTPUT_SUFFIX`). -/
def outputSuffix : List Char := ['_', 'l', 'i', 'n', 'e', 's', '.', 'c', 's', 'v']

/-- The path of the table of an input: beside it, named after its stem (`output_path_for`). -/
def outputFor (p : FilePath) : FilePath := p.withFileName (p.stem ++ outputSuffix)

end FilePath

end DialogueExport
