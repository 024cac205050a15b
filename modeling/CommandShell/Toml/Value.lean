/-!
TOML values, and the tables that a document builds up line by line.
-/

namespace CommandShell.Toml

/-- How a table came to be, which decides what may still be added to it. -/
inductive Origin where
  /-- By a header of its own. -/
  | header
  /-- By the header of a table inside it. -/
  | implied
  /-- By a dotted key. -/
  | dotted
  /-- As a value in braces. -/
  | inline
  deriving DecidableEq, Repr

/-- A value.  Of a float and of a date only its being one is kept. -/
inductive Value where
  | text (text : String)
  | integer (value : Int)
  | float
  | date
  | truth (value : Bool)
  | list (items : List Value)
  | table (origin : Origin) (entries : List (String × Value))
  /-- Tables whose headers have the same path. -/
  | tables (items : List (List (String × Value)))

/-- The entries of a table in the order in which they were added. -/
abbrev Entries := List (String × Value)

namespace Entries

def get? (es : Entries) (key : String) : Option Value :=
  (es.find? (·.1 == key)).map (·.2)

/-- Puts a value in the place of the one under the same key, or at the end. -/
def put (es : Entries) (key : String) (v : Value) : Entries :=
  match es with
  | [] => [(key, v)]
  | e :: rest => if e.1 = key then (key, v) :: rest else e :: put rest key v

/-- Assigns a value to a dotted key, unless that would assign twice or change a table that was
defined in another way. -/
def assign (es : Entries) : List String → Value → Option Entries
  | [], _ => none
  | [key], v => if (es.get? key).isSome then none else some (es ++ [(key, v)])
  | key :: rest@(_ :: deeper), v =>
    match es.get? key with
    | none => (assign [] rest v).map fun inner => es ++ [(key, .table .dotted inner)]
    | some (.table origin inner) =>
      if origin = .dotted ∨ (origin = .implied ∧ !deeper.isEmpty) then
        (assign inner rest v).map fun inner => es.put key (.table origin inner)
      else none
    | some (.tables ts) =>
      if deeper.isEmpty then none
      else
        (assign (ts.getLast?.getD []) rest v).map fun last =>
          es.put key (.tables (ts.dropLast ++ [last]))
    | some _ => none

/-- Changes the table at the path of a header, of which missing tables are implied.  Of several tables
with one path it is the last. -/
def changeAt (change : Entries → Option Entries) (es : Entries) : List String → Option Entries
  | [] => change es
  | key :: rest =>
    match es.get? key with
    | none => (changeAt change [] rest).map fun inner => es ++ [(key, .table .implied inner)]
    | some (.table .inline _) => none
    | some (.table origin inner) =>
      (changeAt change inner rest).map fun inner => es.put key (.table origin inner)
    | some (.tables ts) =>
      (changeAt change (ts.getLast?.getD []) rest).map fun last =>
        es.put key (.tables (ts.dropLast ++ [last]))
    | some _ => none

/-- Adds the table of a header, which must be new or have been implied only. -/
def openTable (key : String) (es : Entries) : Option Entries :=
  match es.get? key with
  | none => some (es ++ [(key, .table .header [])])
  | some (.table .implied inner) => some (es.put key (.table .header inner))
  | some _ => none

/-- Adds one more of the tables with the same header. -/
def openNextTable (key : String) (es : Entries) : Option Entries :=
  match es.get? key with
  | none => some (es ++ [(key, .tables [[]])])
  | some (.tables ts) => some (es.put key (.tables (ts ++ [[]])))
  | some _ => none

/-- The entries of the table under a key; there are none if the key is missing.  A list stands for the
table of the given fields in their order, the first `required` of which it must have, and a date for
a table of nothing. -/
def section? (es : Entries) (key : String) (fields : List String) (required : Nat) :
    Option Entries :=
  match es.get? key with
  | none | some .date => some []
  | some (.table _ inner) => some inner
  | some (.list vs) => if vs.length < required then none else some (fields.zip vs)
  | some _ => none

end Entries

end CommandShell.Toml
