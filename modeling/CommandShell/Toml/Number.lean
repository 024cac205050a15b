import CommandShell.Toml.Digits
import CommandShell.Toml.Value

/-!
Numbers and other words without quotes in a TOML document.  A float must not be so large that it
rounds to infinity.
-/

namespace CommandShell.Toml.Reader

/-- Digits without a superfluous zero at their front. -/
def decimal? (cs : List Char) : Option (List Char) :=
  match digits? Char.isDigit cs with
  | some ('0' :: _ :: _) => none
  | d => d

/-- An integer of 64 bits. -/
def integer? (n : Int) : Option Value :=
  let bound : Int := Nat.pow 2 63
  if -bound ≤ n ∧ n < bound then some (.integer n) else none

/-- The number `digits · 10 ^ exponent`. -/
structure Decimal where
  digits : List Char
  exponent : Int

/-- The least number that is nearer to the next power of two than to the largest float, which is
`2 ^ 1024 - 2 ^ 971`. -/
def overflowBound : Nat := Nat.pow 2 1024 - Nat.pow 2 970

/-- The number rounds to infinity.  Its first digit decides unless it stands where that of the bound
does. -/
def Decimal.overflows (d : Decimal) : Bool :=
  let digits := d.digits.dropWhile (· == '0')
  let width : Int := digits.length + d.exponent
  if digits.isEmpty || width < 309 then false
  else if 309 < width then true
  else
    numberOf 10 digits * Nat.pow 10 d.exponent.toNat ≥ overflowBound * Nat.pow 10 (-d.exponent).toNat

/-- An exponent with its sign. -/
def exponent? : List Char → Option Int
  | '+' :: ds => (digits? Char.isDigit ds).map fun ds => (numberOf 10 ds : Int)
  | '-' :: ds => (digits? Char.isDigit ds).map fun ds => -(numberOf 10 ds : Int)
  | ds => (digits? Char.isDigit ds).map fun ds => (numberOf 10 ds : Int)

/-- An unsigned number with a fraction, an exponent or both. -/
def float? (cs : List Char) : Option Decimal :=
  let isMark (c : Char) : Bool := c == 'e' || c == 'E'
  let mantissa := cs.takeWhile fun c => !isMark c
  let whole := mantissa.takeWhile (· != '.')
  match mantissa.drop whole.length, cs.drop mantissa.length with
  | [], [] => none
  | fraction, mark => do
    let whole ← decimal? whole
    let fraction ← match fraction with
      | [] => some []
      | _ :: ds => digits? Char.isDigit ds
    let exponent ← match mark with
      | [] => some 0
      | _ :: ds => exponent? ds
    return ⟨whole ++ fraction, exponent - fraction.length⟩

/-- A number after its sign. -/
def unsigned? (negative : Bool) (cs : List Char) : Option Value :=
  match decimal? cs with
  | some ds => integer? (if negative then -(numberOf 10 ds : Int) else numberOf 10 ds)
  | none =>
    if cs = "inf".toList ∨ cs = "nan".toList then some .float
    else (float? cs).bind fun d => if !negative && d.overflows then none else some .float

/-- The value of a word without quotes. -/
def bareValue? (cs : List Char) : Option Value :=
  if cs = "true".toList then some (.truth true)
  else if cs = "false".toList then some (.truth false)
  else
    match cs with
    | '0' :: 'x' :: ds => (digits? (fun c => (hexValue? c).isSome) ds).bind (integer? <| numberOf 16 ·)
    | '0' :: 'o' :: ds => (digits? (fun c => '0' ≤ c && c ≤ '7') ds).bind (integer? <| numberOf 8 ·)
    | '0' :: 'b' :: ds => (digits? (fun c => c == '0' || c == '1') ds).bind (integer? <| numberOf 2 ·)
    | '+' :: ds => unsigned? false ds
    | '-' :: ds => unsigned? true ds
    | ds => unsigned? false ds

def isBareValueChar (c : Char) : Bool := c.isAlphanum || c == '_' || c == '-' || c == '+' || c == '.'

end CommandShell.Toml.Reader
