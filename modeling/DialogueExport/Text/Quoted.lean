import DialogueExport.Text.Printable

/-!
# Quoted text

How a message shows a piece of text or a path: in double quotes, with the quote, the backslash
and four control characters written as a backslash and a letter, and every other character
that is not shown as itself written by its number.  A single quote stays as it is.
-/

namespace DialogueExport.Text

/-- One character inside quotes. -/
def escaped (c : Char) : List Char :=
  if c = '"' then ['\\', '"']
  else if c = '\\' then ['\\', '\\']
  else if c = '\t' then ['\\', 't']
  else if c = '\n' then ['\\', 'n']
  else if c = '\r' then ['\\', 'r']
  else if c.toNat = 0 then ['\\', '0']
  else if isHidden c then
    ['\\', 'u', '\x7b'] ++ Nat.toDigits 16 c.toNat ++ ['\x7d']
  else [c]

/-- The text in double quotes. -/
def quoted (s : String) : String :=
  String.ofList ('"' :: s.toList.flatMap escaped ++ ['"'])

end DialogueExport.Text
