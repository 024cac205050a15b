/-!
UTF-16 and UTF-32 in both byte orders.
-/

namespace CommandShell.Encoding

/-- Which byte of a number comes first: the least or the most significant one. -/
inductive ByteOrder where
  | little
  | big
  deriving DecidableEq, Repr

def ByteOrder.arrange (order : ByteOrder) (bytes : List UInt8) : List UInt8 :=
  match order with
  | .little => bytes
  | .big => bytes.reverse

/-- The `count` bytes of a number, least significant first. -/
def bytesOf : (count : Nat) → Nat → List UInt8
  | 0, _ => []
  | count + 1, n => UInt8.ofNat (n % 256) :: bytesOf count (n / 256)

/-- The number that bytes stand for, least significant first. -/
def numberOf : List UInt8 → Nat
  | [] => 0
  | b :: bs => b.toNat + 256 * numberOf bs

/-- The character of a code point that is one. -/
def scalar? (n : Nat) : Option Char :=
  if n.isValidChar then some (Char.ofNat n) else none

namespace Utf16

/-- The code units of a character. -/
def unitsOf (c : Char) : List Nat :=
  let n := c.toNat
  if n < 0x10000 then [n]
  else [0xD800 + (n - 0x10000) / 0x400, 0xDC00 + (n - 0x10000) % 0x400]

/-- The first surrogate of a pair. -/
def isLeading (u : Nat) : Bool := 0xD800 ≤ u && u < 0xDC00

/-- The second surrogate of a pair. -/
def isTrailing (u : Nat) : Bool := 0xDC00 ≤ u && u < 0xE000

/-- The code point that a pair of surrogates stands for. -/
def pairValue (u v : Nat) : Nat := (u - 0xD800) * 0x400 + (v - 0xDC00) + 0x10000

/-- The characters of code units, in which surrogates come in pairs. -/
def charsOf? : List Nat → Option (List Char)
  | [] => some []
  | [u] => (scalar? u).map ([·])
  | u :: v :: us =>
    if isLeading u then
      if isTrailing v then (scalar? (pairValue u v)).bind fun c => (charsOf? us).map (c :: ·)
      else none
    else (scalar? u).bind fun c => (charsOf? (v :: us)).map (c :: ·)

/-- The code units that bytes stand for, if they are even in number. -/
def unitsOfBytes? (order : ByteOrder) : List UInt8 → Option (List Nat)
  | [] => some []
  | [_] => none
  | a :: b :: rest => (unitsOfBytes? order rest).map (numberOf (order.arrange [a, b]) :: ·)

def encode (order : ByteOrder) (s : String) : List UInt8 :=
  s.toList.flatMap fun c => (unitsOf c).flatMap fun u => order.arrange (bytesOf 2 u)

def decode? (order : ByteOrder) (bytes : List UInt8) : Option String :=
  ((unitsOfBytes? order bytes).bind charsOf?).map String.ofList

end Utf16

namespace Utf32

/-- The characters that bytes stand for, if they are four each. -/
def charsOf? (order : ByteOrder) : List UInt8 → Option (List Char)
  | [] => some []
  | a :: b :: c :: d :: rest =>
    match scalar? (numberOf (order.arrange [a, b, c, d])) with
    | some x => (charsOf? order rest).map (x :: ·)
    | none => none
  | _ => none

def encode (order : ByteOrder) (s : String) : List UInt8 :=
  s.toList.flatMap fun c => order.arrange (bytesOf 4 c.toNat)

def decode? (order : ByteOrder) (bytes : List UInt8) : Option String :=
  (charsOf? order bytes).map String.ofList

end Utf32

end CommandShell.Encoding
