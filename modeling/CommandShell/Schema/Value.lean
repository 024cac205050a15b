/-!
Typed values of arguments and the readers that make them from text.
-/

namespace CommandShell

/-- Whole numbers of a fixed width. -/
structure NumberType where
  signed : Bool
  bits : Nat
  deriving DecidableEq, Repr

namespace NumberType

def least (t : NumberType) : Int := if t.signed then -(Nat.pow 2 (t.bits - 1) : Int) else 0

def greatest (t : NumberType) : Int :=
  if t.signed then (Nat.pow 2 (t.bits - 1) : Int) - 1 else (Nat.pow 2 t.bits : Int) - 1

end NumberType

/-- A converted argument or option. -/
inductive Value where
  | text (text : String)
  | number (type : NumberType) (value : Int)
  | truth (value : Bool)
  | character (value : Char)
  deriving DecidableEq, Repr

def NumberType.name (t : NumberType) : String := (if t.signed then "i" else "u") ++ toString t.bits

namespace Value

def typeName : Value → String
  | text _ => "String"
  | number type _ => type.name
  | truth _ => "bool"
  | character _ => "char"

/-- The value as text. -/
def shown : Value → String
  | text s => s
  | number _ n => toString n
  | truth b => toString b
  | character c => c.toString

end Value

/-- Reads a value from text, or gives the reason why that cannot be done. -/
abbrev Converter := String → Except String Value

namespace Converter

/-- Why a text is no number of a type. -/
inductive NumberFault where
  | empty
  | invalidDigit
  | tooLarge
  | tooSmall
  deriving DecidableEq, Repr

def NumberFault.message : NumberFault → String
  | .empty => "cannot parse integer from empty string"
  | .invalidDigit => "invalid digit found in string"
  | .tooLarge => "number too large to fit in target type"
  | .tooSmall => "number too small to fit in target type"

/-- Reads digits after `value`.  The first digit that leads out of the type's range is the fault,
unless something else than a digit comes before it. -/
def readDigits (t : NumberType) (negative : Bool) (value : Int) : List Char → Except NumberFault Int
  | [] => .ok value
  | c :: cs =>
    if c.isDigit then
      let digit : Int := c.toNat - '0'.toNat
      let next := if negative then value * 10 - digit else value * 10 + digit
      if next > t.greatest then .error .tooLarge
      else if next < t.least then .error .tooSmall
      else readDigits t negative next cs
    else .error .invalidDigit

/-- Reads a number in decimal notation, with a sign if the type has one; a plus is always allowed. -/
def readNumber (t : NumberType) (text : String) : Except NumberFault Int :=
  match text.toList with
  | [] => .error .empty
  | ['+'] | ['-'] => .error .invalidDigit
  | '+' :: cs => readDigits t false 0 cs
  | '-' :: cs => if t.signed then readDigits t true 0 cs else .error .invalidDigit
  | cs => readDigits t false 0 cs

/-- Keeps the text. -/
def text : Converter := fun s => .ok (.text s)

def number (t : NumberType) : Converter := fun s =>
  match readNumber t s with
  | .ok n => .ok (.number t n)
  | .error e => .error e.message

def truth : Converter := fun s =>
  if s = "true" then .ok (.truth true)
  else if s = "false" then .ok (.truth false)
  else .error "provided string was not `true` or `false`"

def character : Converter := fun s =>
  match s.toList with
  | [c] => .ok (.character c)
  | [] => .error "cannot parse char from empty string"
  | _ => .error "too many characters in string"

end Converter

end CommandShell
