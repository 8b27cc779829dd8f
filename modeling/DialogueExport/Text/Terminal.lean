/-!
# Text for a terminal

Some control characters are orders to a terminal and not text: the bell, the backspace, the form
feed, the escape and the delete character, and the controls above ASCII.  A log line shows them
by their numbers.  Line ends, tabs and all other characters stay as they are.
-/

namespace DialogueExport.Text

/-- The orders within ASCII. -/
def isAsciiOrder (c : Char) : Bool :=
  c.toNat = 0x07 || c.toNat = 0x08 || c.toNat = 0x0c || c.toNat = 0x1b || c.toNat = 0x7f

/-- The controls above ASCII. -/
def isHighOrder (c : Char) : Bool := 0x80 ≤ c.toNat && c.toNat ≤ 0x9f

/-- Two hexadecimal digits. -/
def twoDigits (n : Nat) : List Char := [Nat.digitChar (n / 16), Nat.digitChar (n % 16)]

/-- A character as a log line shows it. -/
def shown (c : Char) : List Char :=
  if isAsciiOrder c then ['\\', 'x'] ++ twoDigits c.toNat
  else if isHighOrder c then ['\\', 'u', '\x7b'] ++ twoDigits c.toNat ++ ['\x7d']
  else [c]

/-- A text as a log line shows it. -/
def withoutOrders (s : String) : String := String.ofList (s.toList.flatMap shown)

end DialogueExport.Text
