import CommandShell.Toml.Digits

/-!
Dates and times of day in a TOML document.
-/

namespace CommandShell.Toml.Reader

/-- Reads a number of two digits that lies between two others. -/
def readTwoDigits (least most : Nat) : List Char → Read Nat
  | a :: b :: rest =>
    let n := numberOf 10 [a, b]
    if a.isDigit && b.isDigit && least ≤ n && n ≤ most then some (n, rest) else none
  | _ => none

def isLeapYear (year : Nat) : Bool := year % 4 == 0 && (year % 100 != 0 || year % 400 == 0)

def daysOfMonth (year month : Nat) : Nat :=
  if month = 2 then if isLeapYear year then 29 else 28
  else if [4, 6, 9, 11].contains month then 30
  else 31

/-- What is left after a time of day, of which the seconds may have a fraction. -/
def skipTime (cs : List Char) : Option (List Char) := do
  let (_, ':' :: cs) ← readTwoDigits 0 23 cs | none
  let (_, ':' :: cs) ← readTwoDigits 0 59 cs | none
  match ← readTwoDigits 0 60 cs with
  | (_, '.' :: d :: rest) => if d.isDigit then some (rest.dropWhile Char.isDigit) else none
  | (_, rest) => some rest

/-- What is left after the distance from world time, if there is one. -/
def skipOffset (cs : List Char) : List Char :=
  match cs with
  | 'Z' :: rest | 'z' :: rest => rest
  | '+' :: rest | '-' :: rest =>
    match readTwoDigits 0 23 rest with
    | some (_, ':' :: minutes) => ((readTwoDigits 0 59 minutes).map (·.2)).getD cs
    | _ => cs
  | _ => cs

/-- What is left after a date. -/
def skipDay (cs : List Char) : Option (List Char) := do
  let (century, cs) ← readTwoDigits 0 99 cs
  let (rest, '-' :: cs) ← readTwoDigits 0 99 cs | none
  let (month, '-' :: cs) ← readTwoDigits 1 12 cs | none
  let (_, cs) ← readTwoDigits 1 (daysOfMonth (100 * century + rest) month) cs
  return cs

/-- What is left after a date with or without a time, or after a time alone. -/
def skipDate (cs : List Char) : Option (List Char) :=
  match skipDay cs with
  | none => skipTime cs
  | some rest =>
    match rest with
    | 'T' :: time | 't' :: time | ' ' :: time => some (((skipTime time).map skipOffset).getD rest)
    | _ => some rest

end CommandShell.Toml.Reader
