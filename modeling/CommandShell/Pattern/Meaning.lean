import CommandShell.Pattern.Basic
import CommandShell.Pattern.Fault
import CommandShell.Pattern.Tree
import CommandShell.Text.Fold

/-!
What a written pattern stands for.
-/

namespace CommandShell.Pattern

open Text

/-- How a part of a pattern is read. -/
structure Flags where
  ignoreCase : Bool := false
  manyLines : Bool := false
  anyWithBreaks : Bool := false
  swapGreed : Bool := false
  /-- Classes are those of all characters, not of ASCII bytes. -/
  characters : Bool := true
  returnBreaks : Bool := false
  deriving DecidableEq, Repr

namespace Flags

/-- The flags after some of them have been switched on or off. -/
def apply (f : Flags) (items : List FlagItem) : Flags :=
  let state (flag : Flag) (old : Bool) := (flagState flag false items).getD old
  { ignoreCase := state .ignoreCase f.ignoreCase
    manyLines := state .manyLines f.manyLines
    anyWithBreaks := state .anyWithBreaks f.anyWithBreaks
    swapGreed := state .swapGreed f.swapGreed
    characters := state .characters f.characters
    returnBreaks := state .returnBreaks f.returnBreaks }

end Flags

/-- The characters that patterns do not know yet. -/
def recentChars : CharSet := .ofRanges recentRanges

/-- The digits of decimal numbers. -/
def digitChars : CharSet := (CharSet.ofProperty .digit).diff recentChars

/-- The characters that words are made of. -/
def wordChars : CharSet := (CharSet.ofProperty .word).diff recentChars

/-- White space. -/
def blankChars : CharSet :=
  .ofRanges [(9, 13), (0x20, 0x20), (0x85, 0x85), (0xA0, 0xA0), (0x1680, 0x1680), (0x2000, 0x200A),
    (0x2028, 0x2029), (0x202F, 0x202F), (0x205F, 0x205F), (0x3000, 0x3000)]

def Kind.chars : Kind → CharSet
  | digit => digitChars
  | blank => blankChars
  | word => wordChars

def AsciiClass.ranges : AsciiClass → List (Nat × Nat)
  | alnum => [(0x30, 0x39), (0x41, 0x5A), (0x61, 0x7A)]
  | alpha => [(0x41, 0x5A), (0x61, 0x7A)]
  | ascii => [(0, 0x7F)]
  | blank => [(9, 9), (0x20, 0x20)]
  | cntrl => [(0, 0x1F), (0x7F, 0x7F)]
  | digit => [(0x30, 0x39)]
  | graph => [(0x21, 0x7E)]
  | lower => [(0x61, 0x7A)]
  | print => [(0x20, 0x7E)]
  | punct => [(0x21, 0x2F), (0x3A, 0x40), (0x5B, 0x60), (0x7B, 0x7E)]
  | space => [(9, 13), (0x20, 0x20)]
  | upper => [(0x41, 0x5A)]
  | word => [(0x30, 0x39), (0x41, 0x5A), (0x5F, 0x5F), (0x61, 0x7A)]
  | xdigit => [(0x30, 0x39), (0x41, 0x46), (0x61, 0x66)]

/-- The ASCII characters of a kind. -/
def Kind.asciiChars : Kind → CharSet
  | digit => .ofRanges AsciiClass.digit.ranges
  | blank => .ofRanges AsciiClass.space.ranges
  | word => .ofRanges AsciiClass.word.ranges

/-- All ASCII characters. -/
def asciiChars : CharSet := .ofRange 0 0x7F

/-- The set lies in the bytes of ASCII. -/
def isAscii (s : CharSet) : Bool := s.ranges.all (·.2 < 0x80)

/-- The set with the other forms of its letters. -/
def foldCase (f : Flags) (s : CharSet) : CharSet :=
  if !f.ignoreCase then s
  else if f.characters then s.closeUnderCase
  else s.union (s.closeUnderCase.inter asciiChars)

/-- The characters outside a set.  Where it leaves out only the surrogates, which are no characters,
the two characters around these are taken. -/
def outside (s : CharSet) : CharSet :=
  let gap := s.bounds.contains 0xD800 && s.bounds.contains 0xE000
  let rest := CharSet.ofRanges s.complement.ranges
  if gap && isInside 0xD7FF s.bounds && isInside 0xE000 s.bounds then
    rest.union (.ofRanges [(0xD7FF, 0xE000)])
  else rest

/-- A set with the other forms of its letters, or what is outside of that; bytes must be ASCII. -/
def foldAndNegate (f : Flags) (span : Span) (negated : Bool) (s : CharSet) :
    Except Fault CharSet :=
  let s := foldCase f s
  let s := if negated then outside s else s
  if f.characters || isAscii s then .ok s else .error ⟨.noCharacters, span, none⟩

/-- The characters of a kind, or those outside. -/
def kindChars (f : Flags) (span : Span) (kind : Kind) (negated : Bool) : Except Fault CharSet :=
  foldAndNegate { f with ignoreCase := false } span negated
    (if f.characters then kind.chars else kind.asciiChars)

/-- The names of the general categories and of their groups. -/
def categoryNames : List (String × String × List Category) :=
  [("lu", "uppercaseletter", [.upperLetter]), ("ll", "lowercaseletter", [.lowerLetter]),
   ("lt", "titlecaseletter", [.titleLetter]), ("lc", "casedletter", Category.casedLetters),
   ("lm", "modifierletter", [.modifierLetter]), ("lo", "otherletter", [.otherLetter]),
   ("l", "letter", Category.letters), ("mn", "nonspacingmark", [.nonspacingMark]),
   ("mc", "spacingmark", [.spacingMark]), ("me", "enclosingmark", [.enclosingMark]),
   ("m", "mark", Category.marks), ("nd", "decimalnumber", [.decimalDigit]),
   ("nl", "letternumber", [.letterNumber]), ("no", "othernumber", [.otherNumber]),
   ("n", "number", Category.numbers), ("pc", "connectorpunctuation", [.connector]),
   ("pd", "dashpunctuation", [.dash]), ("ps", "openpunctuation", [.opening]),
   ("pe", "closepunctuation", [.closing]), ("pi", "initialpunctuation", [.initialQuote]),
   ("pf", "finalpunctuation", [.finalQuote]), ("po", "otherpunctuation", [.otherPunctuation]),
   ("p", "punctuation", Category.punctuation), ("sm", "mathsymbol", [.mathSymbol]),
   ("sc", "currencysymbol", [.currencySymbol]), ("sk", "modifiersymbol", [.modifierSymbol]),
   ("so", "othersymbol", [.otherSymbol]), ("s", "symbol", Category.symbols),
   ("zs", "spaceseparator", [.space]), ("zl", "lineseparator", [.lineSeparator]),
   ("zp", "paragraphseparator", [.paragraphSeparator]), ("z", "separator", Category.separators),
   ("cc", "control", [.control]), ("cf", "format", [.format]), ("co", "privateuse", [.privateUse])]

/-- The name in small letters, without signs and without a leading "is". -/
def plainName (name : String) : String :=
  match (name.toList.filter fun c => c != ' ' && c != '_' && c != '-').map Char.toLower with
  | ['i', 's', 'c'] => "isc"
  | 'i' :: 's' :: rest => String.ofList rest
  | cs => String.ofList cs

/-- The characters of some categories. -/
def categoryChars (ks : List Category) : CharSet :=
  (CharSet.ofProperty ⟨ks, []⟩).diff recentChars

/-- The characters that stand for something. -/
def assignedChars : CharSet :=
  categoryChars (Category.shapes ++ Category.separators ++ [.control, .format, .privateUse])

/-- The characters of the property with the given name. -/
def propertyChars? (name : String) : Option CharSet :=
  let name := plainName name
  if name == "any" then some .full
  else if name == "ascii" then some asciiChars
  else if name == "alphabetic" || name == "alpha" then
    some ((CharSet.ofProperty .alphabetic).diff recentChars)
  else if name == "whitespace" || name == "wspace" || name == "space" then some blankChars
  else if name == "assigned" then some assignedChars
  else if name == "cn" || name == "unassigned" then some assignedChars.complement
  else if name == "c" || name == "other" then
    some (categoryChars (Category.shapes ++ Category.separators)).complement
  else (categoryNames.find? fun n => n.1 == name || n.2.1 == name).map (categoryChars ·.2.2)

def propertyChars (f : Flags) (span : Span) (name : String) (negated : Bool) :
    Except Fault CharSet :=
  if !f.characters then .error ⟨.charactersInByteClass, span, none⟩
  else
    match propertyChars? name with
    | none => .error ⟨.unknownProperty, span, none⟩
    | some s => foldAndNegate f span negated s

/-- The character of a letter.  As a byte it must be ASCII. -/
def letterChar (f : Flags) (l : Letter) : Except Fault Char :=
  if !f.characters && l.isByte && l.char.toNat ≥ 0x80 then .error ⟨.noCharacters, l.span, none⟩
  else .ok l.char

/-- The character of a letter in a class. -/
def memberChar (f : Flags) (l : Letter) : Except Fault Char := do
  let c ← letterChar f l
  if f.characters || c.toNat < 0x80 then return c
  throw ⟨.charactersInByteClass, l.span, none⟩

def SetOp.apply : SetOp → CharSet → CharSet → CharSet
  | inter => CharSet.inter
  | diff => fun s t => .ofRanges (s.diff t).ranges
  | symmDiff => fun s t => .ofRanges (s.symmDiff t).ranges

mutual

/-- The characters of a class. -/
def ClassTree.chars (f : Flags) : ClassTree → Except Fault CharSet
  | .empty _ => .ok .empty
  | .letter l => (memberChar f l).map CharSet.ofChar
  | .range _ first last => do
    let first ← memberChar f first
    let last ← memberChar f last
    return .ofRange first.toNat last.toNat
  | .ascii span name negated => foldAndNegate f span negated (.ofRanges name.ranges)
  | .kind span k negated => kindChars f span k negated
  | .property span name negated => propertyChars f span name negated
  | .bracket span negated inner => do foldAndNegate f span negated (← inner.chars f)
  | .union _ parts => ClassTree.unionChars f parts
  | .op _ o left right => do
    let left ← left.chars f
    let right ← right.chars f
    return o.apply (foldCase f left) (foldCase f right)

def ClassTree.unionChars (f : Flags) : List ClassTree → Except Fault CharSet
  | [] => .ok .empty
  | t :: ts => do
    let s ← t.chars f
    return s.union (← ClassTree.unionChars f ts)

end

/-- The look that a condition asks for. -/
def Condition.look (f : Flags) : Condition → Look
  | lineStart =>
    if !f.manyLines then .textStart else if f.returnBreaks then .returnLineStart else .lineStart
  | lineEnd =>
    if !f.manyLines then .textEnd else if f.returnBreaks then .returnLineEnd else .lineEnd
  | textStart => .textStart
  | textEnd => .textEnd
  | boundary => .boundary (!f.characters)
  | noBoundary => .noBoundary (!f.characters)
  | wordStart => .wordStart (!f.characters)
  | wordEnd => .wordEnd (!f.characters)
  | wordStartHalf => .wordStartHalf (!f.characters)
  | wordEndHalf => .wordEndHalf (!f.characters)

/-- The characters that `.` stands for. -/
def anyChars (f : Flags) : CharSet :=
  if f.anyWithBreaks then .full
  else if f.returnBreaks then (CharSet.ofRanges [(0xA, 0xA), (0xD, 0xD)]).complement
  else (CharSet.ofRange 0xA 0xA).complement

def Atom.meaning (f : Flags) : Atom → Except Fault Pattern
  | letter l => do
    let c ← letterChar f l
    return ofSet (foldCase f (.ofChar c))
  | any span =>
    if f.characters then .ok (ofSet (anyChars f)) else .error ⟨.noCharacters, span, none⟩
  | condition _ k => .ok (.look (k.look f))
  | kind span k negated => (kindChars f span k negated).map ofSet
  | property span name negated => (propertyChars f span name negated).map ofSet

mutual

/-- The pattern that is written, and the flags for what follows in its group. -/
def Tree.meaning (f : Flags) : Tree → Except Fault (Pattern × Flags)
  | .empty _ => .ok (Pattern.empty, f)
  | .flags _ items => .ok (Pattern.empty, f.apply items)
  | .atom a => (a.meaning f).map (·, f)
  | .bracket span negated inner => do
    let s ← foldAndNegate f span negated (← inner.chars f)
    return (ofSet s, f)
  | .times _ least most greedy inner => do
    let (p, f) ← inner.meaning f
    return (repeated least most (greedy != f.swapGreed) p, f)
  | .group _ (.numbered n) inner => do
    let (p, _) ← inner.meaning f
    return (.group n p, f)
  | .group _ (.plain items) inner => do
    let (p, _) ← inner.meaning (f.apply items)
    return (p, f)
  | .either _ branches => do
    let (ps, f) ← Tree.meanings f branches
    return (choice ps, f)
  | .seq _ parts => do
    let (ps, f) ← Tree.meanings f parts
    return (inSequence ps, f)

def Tree.meanings (f : Flags) : List Tree → Except Fault (List Pattern × Flags)
  | [] => .ok ([], f)
  | t :: ts => do
    let (p, f) ← t.meaning f
    let (ps, f) ← Tree.meanings f ts
    return (p :: ps, f)

end

end CommandShell.Pattern
