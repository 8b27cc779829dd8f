import DialogueExport.Program.Wire

/-!
# Tables as text

A table is written as comma-separated values: a header and one line for each row, each ended by
a carriage return and a line feed.  A field stands in quotes if it holds a comma, a quote or one
of the two characters that end a line; a quote in it is then written twice (section 4.5 of the
specification).
-/

namespace DialogueExport.Csv

/-- Whether a character makes its field be quoted. -/
def needsQuotes (c : Char) : Bool := c == ',' || c == '"' || c == '\r' || c == '\n'

/-- Writes every quote twice. -/
def doubleQuotes : List Char → List Char
  | [] => []
  | c :: r => if c = '"' then '"' :: '"' :: doubleQuotes r else c :: doubleQuotes r

/-- A field as it is written. -/
def encodeField (s : List Char) : List Char :=
  if s.any needsQuotes then '"' :: doubleQuotes s ++ ['"'] else s

/-- The end of a line. -/
def lineEnd : List Char := ['\r', '\n']

/-- Fields with commas between them. -/
def encodeFields : List (List Char) → List Char
  | [] => []
  | [f] => encodeField f
  | f :: g :: fs => encodeField f ++ ',' :: encodeFields (g :: fs)

/-- A line with its end. -/
def encodeLine (fields : List String) : List Char :=
  encodeFields (fields.map String.toList) ++ lineEnd

/-- The fields of a row in the order of the columns. -/
def fields (r : Row) : List String := [r.code, r.text, r.character, r.comment]

/-- The table with its header, which is there even if there are no rows. -/
def encode (rows : List Row) : List Char :=
  (Wire.columns :: rows.map fields).flatMap encodeLine

/-- The table as a text, whose bytes are those of `encode_csv`. -/
def encodeText (rows : List Row) : String := String.ofList (encode rows)

end DialogueExport.Csv
