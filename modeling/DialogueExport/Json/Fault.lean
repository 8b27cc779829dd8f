import DialogueExport.Decimal.Shortest
import DialogueExport.Text.Bytes
import DialogueExport.Text.Quoted

/-!
# What can be wrong with a document, and where

A `Reason` says what is wrong, a `Fault` also where.  While a document is read, a place is the
number of bytes that are left: a reader sees only the rest of the text, and counting back from
the end needs nothing else.  A byte count may point into the middle of a character, because a
reader that refuses a character has taken its first byte.

* A fault of the text has its place at once (`Fault.placed`).
* A fault of a whole value (a field twice or not at all, too few elements, a value that the
  domain refuses) has none until the bracket around it is closed (`Fault.floating`, which keeps
  the rest of the text for that).

`Error.message` is the one place where reasons are put into words.
-/

namespace DialogueExport.Json

open DialogueExport.Text (bytes)

/-! ## 1. Reasons -/

/-- What a value turned out to be. -/
inductive Found where
  | null
  | boolean (b : Bool)
  | integer (n : Int)
  | floating (negative : Bool) (x : Decimal.Binary)
  | text (s : String)
  | list
  | object
deriving DecidableEq

/-- What a value should have been. -/
inductive Wanted where
  | text
  | list
  | table
  /-- A record of a type with this name. -/
  | record (name : String)
deriving DecidableEq

/-- What is wrong. -/
inductive Reason where
  | endInValue
  | endInList
  | endInObject
  | endInText
  | noValue
  | noLiteral
  | noCommaOrListEnd
  | noCommaOrObjectEnd
  | noColon
  | keyNotText
  | commaAtEnd
  | moreCharacters
  | malformedNumber
  | numberTooLarge
  | controlCharacter
  | malformedEscape
  | halfEscape
  | loneSurrogate
  | mismatch (found : Found) (wanted : Wanted)
  | repeatedField (name : String)
  | missingField (name : String)
  /-- Only `read` elements of a record of `size` fields. -/
  | tooShort (read : Nat) (name : String) (size : Nat)
  /-- Well formed and of the right type, but not a value of the domain. -/
  | refused (why : String)
deriving DecidableEq

namespace Found

/-- A float is shown by the shortest decimal that reads back. -/
def describe : Found → String
  | null => "null"
  | boolean true => "boolean `true`"
  | boolean false => "boolean `false`"
  | integer n => "integer `" ++ toString n ++ "`"
  | floating negative x =>
    "floating point `" ++ (if negative then "-" else "") ++ x.shortest.text ++ "`"
  | text s => "string " ++ Text.quoted s
  | list => "sequence"
  | object => "map"

end Found

namespace Wanted

def describe : Wanted → String
  | text => "a string"
  | list => "a sequence"
  | table => "a map"
  | record name => "struct " ++ name

end Wanted

namespace Reason

def describe : Reason → String
  | endInValue => "EOF while parsing a value"
  | endInList => "EOF while parsing a list"
  | endInObject => "EOF while parsing an object"
  | endInText => "EOF while parsing a string"
  | noValue => "expected value"
  | noLiteral => "expected ident"
  | noCommaOrListEnd => "expected `,` or `]`"
  | noCommaOrObjectEnd => "expected `,` or `\x7d`"
  | noColon => "expected `:`"
  | keyNotText => "key must be a string"
  | commaAtEnd => "trailing comma"
  | moreCharacters => "trailing characters"
  | malformedNumber => "invalid number"
  | numberTooLarge => "number out of range"
  | controlCharacter => "control character (\\u0000-\\u001F) found while parsing a string"
  | malformedEscape => "invalid escape"
  | halfEscape => "unexpected end of hex escape"
  | loneSurrogate => "lone leading surrogate in hex escape"
  | mismatch found wanted =>
    "invalid type: " ++ found.describe ++ ", expected " ++ wanted.describe
  | repeatedField name => "duplicate field `" ++ name ++ "`"
  | missingField name => "missing field `" ++ name ++ "`"
  | tooShort read name size =>
    "invalid length " ++ toString read ++ ", expected struct " ++ name ++ " with "
      ++ toString size ++ (if size = 1 then " element" else " elements")
  | refused why => why

end Reason

/-! ## 2. Places -/

/-- A reason with its place, or with the rest of the text where its place is still sought. -/
inductive Fault where
  | placed (reason : Reason) (left : Nat)
  | floating (reason : Reason) (rest : List Char)
deriving DecidableEq

namespace Fault

/-- A fault at the next byte to be read. -/
def here (reason : Reason) (rest : List Char) : Fault := .placed reason (bytes rest)

/-- A fault just after the next byte, or at the end of the text if there is none. -/
def next (reason : Reason) (rest : List Char) : Fault := .placed reason (bytes rest - 1)

end Fault

/-- A line and the number of bytes of it before the place. -/
structure Place where
  line : Nat
  column : Nat
deriving DecidableEq

/-- Goes `n` bytes into a text from a place. -/
def Place.advance : Place → Nat → List Char → Place
  | p, _, [] => p
  | p, n, c :: r =>
    if n = 0 then p
    else if c = '\n' then Place.advance ⟨p.line + 1, 0⟩ (n - 1) r
    else Place.advance ⟨p.line, p.column + min n c.utf8Size⟩ (n - c.utf8Size) r

/-- The place in a text where so many bytes are left. -/
def placeOf (text : List Char) (left : Nat) : Place :=
  Place.advance ⟨1, 0⟩ (bytes text - left) text

/-! ## 3. Errors -/

/-- Why a text is no document of the wanted type. -/
structure Error where
  reason : Reason
  /-- Missing for a fault of a whole value around which no bracket is closed. -/
  place : Option Place
deriving DecidableEq

/-- The reason, and where the text is at fault. -/
def Error.message (e : Error) : String :=
  match e.place with
  | none => e.reason.describe
  | some p => e.reason.describe ++ " at line " ++ toString p.line ++ " column " ++ toString p.column

/-- Counts the place of a fault from the start of the text. -/
def Fault.inText (text : List Char) : Fault → Error
  | .placed reason left => ⟨reason, some (placeOf text left)⟩
  | .floating reason _ => ⟨reason, none⟩

end DialogueExport.Json
