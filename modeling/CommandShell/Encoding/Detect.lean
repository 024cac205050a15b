import CommandShell.Encoding.Wide
import CommandShell.Text.Blank

/-!
The text of a file whose encoding is not known.
-/

namespace CommandShell

/-- The encodings that a file may have. -/
inductive Encoding where
  | utf8
  | utf16 (order : Encoding.ByteOrder)
  | utf32 (order : Encoding.ByteOrder)
  deriving DecidableEq, Repr

namespace Encoding

open Text

/-- The byte-order mark. -/
def mark : Encoding → List UInt8
  | utf8 => [0xEF, 0xBB, 0xBF]
  | utf16 order => Utf16.encode order "\uFEFF"
  | utf32 order => Utf32.encode order "\uFEFF"

def encode : Encoding → String → List UInt8
  | utf8, s => s.toUTF8.data.toList
  | utf16 order, s => Utf16.encode order s
  | utf32 order, s => Utf32.encode order s

/-- The text that bytes stand for in the encoding. -/
def decode? : Encoding → List UInt8 → Option String
  | utf8, bytes => String.fromUTF8? ⟨bytes.toArray⟩
  | utf16 order, bytes => Utf16.decode? order bytes
  | utf32 order, bytes => Utf32.decode? order bytes

/-- A control character other than a line break or a tab. -/
def isStrayControl (c : Char) : Bool :=
  isControl c && c != '\n' && c != '\r' && c != '\t'

/-- The text of the bytes in the encoding.  A wide encoding is only trusted when the text has no
stray controls. -/
def trusted? (e : Encoding) (bytes : List UInt8) : Option String :=
  (e.decode? bytes).filter fun s => e == .utf8 || !s.toList.any isStrayControl

/-- Every encoding, so ordered that a mark comes before any shorter one that it starts with. -/
def byMark : List Encoding :=
  [.utf8, .utf32 .little, .utf32 .big, .utf16 .little, .utf16 .big]

/-- Every encoding, in the order in which bytes without a mark are tried. -/
def byTrial : List Encoding :=
  [.utf8, .utf16 .little, .utf16 .big, .utf32 .little, .utf32 .big]

/-- The text of bytes that are all in ASCII. -/
def ascii? (bytes : List UInt8) : Option String :=
  if bytes.all (·.toNat < 0x80) then some (String.ofList (bytes.map fun b => Char.ofNat b.toNat)) else none

/-- The text of a file: by its mark if it has one, else by the first encoding that fits, and at last
as ASCII. -/
def detect? (bytes : List UInt8) : Option String :=
  match byMark.find? (·.mark.isPrefixOf bytes) with
  | some e => e.trusted? (bytes.drop e.mark.length)
  | none => (byTrial.findSome? (·.trusted? bytes)).or (ascii? bytes)

end Encoding

end CommandShell
