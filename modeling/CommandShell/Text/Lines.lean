/-!
Line breaks.
-/

namespace CommandShell.Text

/-- The text without carriage returns and with `termination` for every line feed. -/
def withLineTermination (text termination : String) : String :=
  String.ofList <|
    (text.toList.filter (· != '\r')).flatMap fun c => if c = '\n' then termination.toList else [c]

/-- The text's last character is a line feed. -/
def endsLine (text : String) : Bool :=
  text.toList.getLast? == some '\n'

/-- The lines of a text.  A line ends at a line feed, which may follow a carriage return that is no
part of the line; there is no line after the last line feed. -/
def lines (text : String) : List String :=
  linesFrom [] text.toList
where
  /-- `line` is the line under way, last character first. -/
  linesFrom (line : List Char) : List Char → List String
    | [] => if line.isEmpty then [] else [String.ofList line.reverse]
    | c :: cs =>
      if c = '\n' then
        let body := match line with
          | '\r' :: rest => rest
          | _ => line
        String.ofList body.reverse :: linesFrom [] cs
      else linesFrom (c :: line) cs

end CommandShell.Text
