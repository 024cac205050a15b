import CommandShell.Text.Property

/-!
Texts in quotes, with escapes for what a reader could not see there.
-/

namespace CommandShell.Text

/-- The character cannot be seen on its own: it has no shape, or it goes with the one before it. -/
def isHidden (c : Char) : Bool :=
  !(c == ' ' || Category.shapes.any (·.contains c.toNat)) ||
    Property.extending.contains c || inRanges Property.blankLetters c.toNat

/-- A character as it stands between quotes. -/
def quotedChar (c : Char) : List Char :=
  match c with
  | '\x00' => ['\\', '0']
  | '\t' => ['\\', 't']
  | '\r' => ['\\', 'r']
  | '\n' => ['\\', 'n']
  | '"' => ['\\', '"']
  | '\\' => ['\\', '\\']
  | c =>
    if isHidden c then ['\\', 'u', '\x7b'] ++ Nat.toDigits 16 c.toNat ++ ['\x7d'] else [c]

/-- A text in quotes. -/
def quoted (s : String) : String :=
  String.ofList ('"' :: (s.toList.flatMap quotedChar ++ ['"']))

/-- Texts in quotes, separated by commas, in brackets. -/
def quotedList (ss : List String) : String := "[" ++ ", ".intercalate (ss.map quoted) ++ "]"

end CommandShell.Text
