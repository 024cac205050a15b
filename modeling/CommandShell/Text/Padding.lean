/-!
Columns of text.
-/

namespace CommandShell.Text

/-- Blanks that bring a text of `length` characters to `width`. -/
def fill (width length : Nat) : String := String.ofList (List.replicate (width - length) ' ')

/-- The text with blanks after it up to `width` characters. -/
def padRight (width : Nat) (s : String) : String := s ++ fill width s.length

/-- The text with blanks before it up to `width` characters. -/
def padLeft (width : Nat) (s : String) : String := fill width s.length ++ s

/-- Texts joined with a line feed between them. -/
def joinLines (ss : List String) : String := "\n".intercalate ss

end CommandShell.Text
