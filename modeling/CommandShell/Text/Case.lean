import CommandShell.Text.CaseTable
import CommandShell.Text.Property

/-!
Letter case: comparing texts without regard to it, and the full small form of a text.
-/

namespace CommandShell.Text

/-- The text with the capitals A to Z made small and all else kept. -/
def foldAscii (s : String) : List Char :=
  s.toList.map Char.toLower

/-- Equal but for the case of the letters A to Z. -/
def eqIgnoringCase (a b : String) : Bool :=
  foldAscii a == foldAscii b

/-- The small letter of a character whose small form is one character. -/
def lowerChar (c : Char) : Char :=
  if c.toNat < 0x80 then c.toLower
  else
    match capitalRuns.find? (·.contains c.toNat) with
    | some r => Char.ofNat (c.toNat + r.offset).toNat
    | none => c

/-- The first character that is not passed over is a letter with case. -/
def meetsCased : List Char → Bool
  | [] => false
  | c :: cs =>
    if Property.caseIgnorable.contains c then meetsCased cs else Property.cased.contains c

/-- The small form of `c` between the text `before` (last character first) and the text `after`.
A capital sigma becomes the final one at a word's end, and the dotted capital I keeps its dot. -/
def lowerAt (before : List Char) (c : Char) (after : List Char) : List Char :=
  if c = 'Σ' then
    if meetsCased before && !meetsCased after then ['ς'] else ['σ']
  else if c = 'İ' then ['i', '\u0307']
  else [lowerChar c]

/-- The small form of the second list when it follows the first (last character first). -/
def lowerChars (before : List Char) : List Char → List Char
  | [] => []
  | c :: cs => lowerAt before c cs ++ lowerChars (c :: before) cs

/-- The small form of a text. -/
def lowercase (s : String) : String :=
  String.ofList (lowerChars [] s.toList)

theorem eqIgnoringCase_iff {a b : String} : eqIgnoringCase a b = true ↔ foldAscii a = foldAscii b := by
  simp [eqIgnoringCase]

theorem eqIgnoringCase_refl (a : String) : eqIgnoringCase a a = true := by
  simp [eqIgnoringCase]

theorem eqIgnoringCase_comm (a b : String) : eqIgnoringCase a b = eqIgnoringCase b a := by
  simp [eqIgnoringCase, Bool.beq_comm]

end CommandShell.Text
