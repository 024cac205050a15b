/-!
Ranges of characters as sequences of ranges of bytes.
-/

namespace CommandShell.Pattern

/-- A range of bytes. -/
structure ByteRange where
  first : Nat
  last : Nat
  deriving DecidableEq, Repr

/-- The bytes of a character in UTF-8. -/
def utf8 (n : Nat) : List Nat :=
  if n < 0x80 then [n]
  else if n < 0x800 then [0xC0 + n / 0x40, 0x80 + n % 0x40]
  else if n < 0x10000 then [0xE0 + n / 0x1000, 0x80 + n / 0x40 % 0x40, 0x80 + n % 0x40]
  else
    [0xF0 + n / 0x40000, 0x80 + n / 0x1000 % 0x40, 0x80 + n / 0x40 % 0x40, 0x80 + n % 0x40]

/-- A place inside a range at which it must be cut: between characters of different lengths, at the
surrogates, or where a byte changes before the bytes behind it have gone through all values. -/
def cut? (first last : Nat) : Option (Nat × Nat) :=
  let lengths := [0x7F, 0x7FF, 0xFFFF].find? fun m => first ≤ m && m < last
  let blocks := [0x40, 0x1000, 0x40000].findSome? fun m =>
    if first / m == last / m then none
    else if first % m != 0 then some (first / m * m + m - 1)
    else if last % m != m - 1 then some (last / m * m - 1)
    else none
  if first < 0xE000 && 0xD7FF < last then some (0xD7FF, 0xE000)
  else (lengths <|> if last < 0x80 then none else blocks).map fun m => (m, m + 1)

/-- The range as sequences of ranges of bytes, in ascending order. -/
def byteSequences : Nat → Nat → Nat → List (List ByteRange)
  | 0, _, _ => []
  | fuel + 1, first, last =>
    if last < first then []
    else
      match cut? first last with
      | some (l, r) => byteSequences fuel first l ++ byteSequences fuel r last
      | none => [(utf8 first).zipWith ByteRange.mk (utf8 last)]

end CommandShell.Pattern
