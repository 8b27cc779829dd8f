import DialogueExport.ExportError
import DialogueExport.Table

/-!
# File systems

A tree of directories with files in it, given as a table from places to what is there.  A place
is the list of names on the way from the root.  A path leads to a place piece by piece
(`walk`): every piece is looked up in a directory, also one that names nothing, and only the
last place may be empty.

An export reads and writes files and does nothing else to them (sections 2 and 3).  Directories are made
and files removed by others, between two runs (section 5).
-/

namespace DialogueExport

/-- The names on the way from the root. -/
abbrev Location := List (List Char)

/-- What is at a place. -/
inductive Entry where
  | file (content : ByteArray)
  | directory

/-- What is where, and where paths that do not start at the root start. -/
structure FileSystem where
  entries : Table Location Entry
  workingDirectory : Location

namespace FileSystem

/-- What is at a place.  The root is a directory. -/
def find? (fs : FileSystem) (place : Location) : Option Entry :=
  if place = [] then some .directory else fs.entries.get? place

/-- A file system with nothing but an empty working directory. -/
def empty : FileSystem :=
  let home : Location := [['w', 'o', 'r', 'k']]
  ⟨Table.ofEntries [(home, .directory)], home⟩

/-! ## 1. Where a path leads -/

/-- The most bytes that a name may have. -/
def longestName : Nat := 255

/-- The most bytes that a path may have. -/
def longestPath : Nat := 4095

/-- Goes on from a place by the pieces of a path. -/
def walk (fs : FileSystem) : Location → List (List Char) → Except IoFault Location
  | place, [] => .ok place
  | place, piece :: pieces =>
    match fs.find? place with
    | none => .error .notFound
    | some (.file _) => .error .notDirectory
    | some .directory =>
      if FilePath.isIdle piece then walk fs place pieces
      else if piece = ['.', '.'] then walk fs place.dropLast pieces
      else if longestName < Text.bytes piece then .error .nameTooLong
      else walk fs (place ++ [piece]) pieces

/-- Where a path starts. -/
def origin (fs : FileSystem) (path : List Char) : Location :=
  if path.head? = some '/' then [] else fs.workingDirectory

/-- Why a path leads nowhere whatever there is. -/
def pathFault? (path : List Char) : Option IoFault :=
  if path.any fun c => c.toNat = 0 then some .nullInPath
  else if path = [] then some .notFound
  else if longestPath < Text.bytes path then some .nameTooLong
  else none

/-- The place that a path names, which may be empty. -/
def locate (fs : FileSystem) (p : FilePath) : Except IoFault Location :=
  let s := p.text.toList
  match pathFault? s with
  | some fault => .error fault
  | none => fs.walk (fs.origin s) (Text.split '/' s)

/-! ## 2. Reading -/

/-- Whether a path names a file. -/
def isFile (fs : FileSystem) (p : FilePath) : Bool :=
  match fs.locate p with
  | .ok place =>
    match fs.find? place with
    | some (.file _) => true
    | _ => false
  | .error _ => false

/-- The content of a file. -/
def read (fs : FileSystem) (p : FilePath) : Except IoFault ByteArray := do
  let place ← fs.locate p
  match fs.find? place with
  | none => .error .notFound
  | some .directory => .error .isDirectory
  | some (.file content) => .ok content

/-- The content of a file that holds text. -/
def readText (fs : FileSystem) (p : FilePath) : Except IoFault String := do
  let content ← fs.read p
  match String.fromUTF8? content with
  | some text => .ok text
  | none => .error .notText

/-! ## 3. Writing -/

/-- Puts something at a place. -/
def put (fs : FileSystem) (place : Location) (e : Entry) : FileSystem :=
  { fs with entries := fs.entries.insert place e }

/-- Writes a file, which may be new. -/
def write (fs : FileSystem) (p : FilePath) (content : ByteArray) : Except IoFault FileSystem := do
  let place ← fs.locate p
  match fs.find? place with
  | some .directory => .error .isDirectory
  | _ => .ok (fs.put place (.file content))

theorem find?_put_of_ne (fs : FileSystem) {place other : Location} (e : Entry)
    (h : other ≠ place) : (fs.put place e).find? other = fs.find? other := by
  simp only [find?, put]
  split
  · rfl
  · exact Table.get?_insert_of_ne fs.entries e h

theorem find?_put_self (fs : FileSystem) {place : Location} (e : Entry) (h : place ≠ []) :
    (fs.put place e).find? place = some e := by
  simp [find?, put, h]

/-! ## 4. The places on the way -/

/-- The places that the pieces of a path lead through, each with the path to it.  Only the
pieces count here, not what is there. -/
def placesOnWay : Location → List Char → List (List Char) → List (Location × FilePath)
  | _, _, [] => []
  | place, path, piece :: pieces =>
    let path := if path = [] then piece else path ++ '/' :: piece
    if FilePath.isIdle piece then placesOnWay place path pieces
    else
      let next := if piece = ['.', '.'] then place.dropLast else place ++ [piece]
      (next, ⟨String.ofList path⟩) :: placesOnWay next path pieces

/-- The places that a path leads through. -/
def onWay (fs : FileSystem) (p : FilePath) : List (Location × FilePath) :=
  let s := p.text.toList
  if s.head? = some '/' then
    (placesOnWay [] [] (Text.split '/' s)).map fun e => (e.1, ⟨"/" ++ e.2.text⟩)
  else placesOnWay fs.workingDirectory [] (Text.split '/' s)

/-! ## 5. Between the runs of a program -/

/-- What a change leaves behind, and why it ended early if it did. -/
structure Change where
  disk : FileSystem
  fault : Option IoFault := none

/-- Goes on from a place and makes the directories that are missing on the way.  Those that were
made before a fault stay. -/
def makeOnWay (fs : FileSystem) : Location → List (List Char) → Change
  | place, [] =>
    match fs.find? place with
    | some .directory => ⟨fs, none⟩
    | _ => ⟨fs, some .notDirectory⟩
  | place, piece :: pieces =>
    match fs.find? place with
    | none => ⟨fs, some .notFound⟩
    | some (.file _) => ⟨fs, some .notDirectory⟩
    | some .directory =>
      if FilePath.isIdle piece then makeOnWay fs place pieces
      else if piece = ['.', '.'] then makeOnWay fs place.dropLast pieces
      else if longestName < Text.bytes piece then ⟨fs, some .nameTooLong⟩
      else
        let next := place ++ [piece]
        makeOnWay (if (fs.find? next).isNone then fs.put next .directory else fs) next pieces

/-- Makes a directory and those around it.  The empty path asks for nothing. -/
def makeDirectory (fs : FileSystem) (p : FilePath) : Change :=
  let s := p.text.toList
  if s = [] then ⟨fs, none⟩
  else
    match pathFault? s with
    | some fault => ⟨fs, some fault⟩
    | none => makeOnWay fs (fs.origin s) (Text.split '/' s)

/-- Makes the directories around a path. -/
def makeParents (fs : FileSystem) (p : FilePath) : Change :=
  match p.parent? with
  | some directory => fs.makeDirectory directory
  | none => ⟨fs, none⟩

/-- Writes a file and makes the directories around it.  They stay if the file cannot be
written. -/
def writeWithParents (fs : FileSystem) (p : FilePath) (content : ByteArray) : Change :=
  let made := fs.makeParents p
  match made.fault, made.disk.write p content with
  | none, .ok fs => ⟨fs, none⟩
  | none, .error fault => ⟨made.disk, some fault⟩
  | some _, _ => made

/-- Removes a file. -/
def remove (fs : FileSystem) (p : FilePath) : Except IoFault FileSystem := do
  let place ← fs.locate p
  match fs.find? place with
  | none => .error .notFound
  | some .directory => .error .isDirectory
  | some (.file _) => .ok { fs with entries := fs.entries.erase place }

/-- What is below the working directory, by the path from there.  The path of a directory ends
in a slash. -/
def listing (fs : FileSystem) : List (String × Entry) :=
  fs.entries.entries.filterMap fun e =>
    if fs.workingDirectory.isPrefixOf e.1 ∧ e.1 ≠ fs.workingDirectory then
      let path := Text.join '/' (e.1.drop fs.workingDirectory.length)
      match e.2 with
      | .file content => some (String.ofList path, .file content)
      | .directory => some (String.ofList (path ++ ['/']), .directory)
    else none

end FileSystem

end DialogueExport
