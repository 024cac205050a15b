import CommandShell.Pattern.Depth
import CommandShell.Pattern.Meaning
import CommandShell.Pattern.Reader
import CommandShell.Pattern.Size

/-!
Which texts are taken as patterns.
-/

namespace CommandShell

namespace Pattern

/-- Why a text is not taken as a pattern. -/
inductive Refusal where
  | fault (fault : Fault)
  | tooLarge
  deriving DecidableEq, Repr

def Refusal.message (text : String) : Refusal → String
  | fault f => f.message text
  | tooLarge => s!"Compiled regex exceeds size limit of {roomLimit} bytes."

/-- Reads a pattern. -/
def read (ignoreCase : Bool) (text : String) : Except Refusal Pattern := do
  let meant : Except Fault (Pattern × Flags) := do
    let tree ← Tree.ofText text
    tree.checkDepth 0
    tree.meaning { ignoreCase }
  match meant with
  | .error f => throw (.fault f)
  | .ok (p, _) => if isTooLarge p then throw .tooLarge else return p

end Pattern

end CommandShell
