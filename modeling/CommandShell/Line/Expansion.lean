/-!
Variables in a line: `%NAME%` stands for a value and `%%` for a percent sign.
-/

namespace CommandShell.Line

/-- Replaces the variables of a text; `name` is what has been read since an open percent sign. -/
def expandFrom (lookup : String → Option String) : (name : Option (List Char)) → List Char → List Char
  | none, [] => []
  | some name, [] => '%' :: name
  | none, c :: cs =>
    if c = '%' then expandFrom lookup (some []) cs else c :: expandFrom lookup none cs
  | some name, c :: cs =>
    if c = '%' then
      if name.isEmpty then '%' :: expandFrom lookup none cs
      else ((lookup (String.ofList name)).getD "").toList ++ expandFrom lookup none cs
    else expandFrom lookup (some (name ++ [c])) cs

/-- Replaces each variable of a line by its value, an unknown one by nothing.  A percent sign that
nothing closes is kept. -/
def expandVariables (lookup : String → Option String) (line : String) : String :=
  String.ofList (expandFrom lookup none line.toList)

end CommandShell.Line
