/-!
# The length of a text in bytes

Places in a document and the limits of paths are counted in bytes of UTF-8.
-/

namespace DialogueExport.Text

/-- The number of bytes of a text in UTF-8. -/
def bytes : List Char → Nat
  | [] => 0
  | c :: r => c.utf8Size + bytes r

end DialogueExport.Text
