import DialogueExport.Json.Text

/-!
# Printing values

Values are printed without white space: the parts of a bracket are separated by commas, and an
object shows its entries in the order in which they are given.
-/

namespace DialogueExport.Json

/-- Parts with commas between them. -/
def printParts : List (List Char) → List Char
  | [] => []
  | [p] => p
  | p :: q :: ps => p ++ ',' :: printParts (q :: ps)

/-- A list of printed elements. -/
def printList (elements : List (List Char)) : List Char := '[' :: printParts elements ++ [']']

/-- An object with printed values. -/
def printObject (entries : List (String × List Char)) : List Char :=
  '\x7b' :: printParts (entries.map fun e => printText e.1.toList ++ ':' :: e.2) ++ ['\x7d']

/-- A string. -/
def printString (s : String) : List Char := printText s.toList

end DialogueExport.Json
