import CommandShell.Command.Request

/-!
What passes between a body and its surroundings, whatever these answer.
-/

namespace CommandShell

/-- What a body has done to its output, or what it has been answered. -/
inductive Exchange where
  | said (action : OutputAction)
  | heard (text : Option String)
  | pressed (key : Option Key)
  | loaded (text : String)
  | told (cancelled : Bool)

/-- A body goes on from a request: what has passed in it, of which other requests leave no trace, and its next
state. -/
inductive Request.Meets {σ : Type} : Request σ → Option Exchange → σ → Prop
  | output (action next) : Meets (.output action next) (some (.said action)) next
  | read (extent next text) : Meets (.read extent next) (some (.heard text)) (next text)
  | readKey (next key) : Meets (.readKey next) (some (.pressed key)) (next key)
  | load (path next text) : Meets (.load path next) (some (.loaded text)) (next text)
  | checkCancelled (next cancelled) : Meets (.checkCancelled next) (some (.told cancelled)) (next cancelled)
  | errorOutput (action next) : Meets (.errorOutput action next) none next
  | flushKeys (next) : Meets (.flushKeys next) none next
  | sleep (milliseconds next passed) : Meets (.sleep milliseconds next) none (next passed)
  | cancel (next) : Meets (.cancel next) none next
  | endSession (hard next) : Meets (.endSession hard next) none next
  | history (next lines) : Meets (.history next) none (next lines)
  | sessions (next live) : Meets (.sessions next) none (next live)
  | environment (change next before) : Meets (.environment change next) none (next before)
  | makeFoldersFor (path next) : Meets (.makeFoldersFor path next) none next
  | openFile (path append next file) : Meets (.openFile path append next) none (next file)
  | writeFile (file text next) : Meets (.writeFile file text next) none next
  | flushFile (file next) : Meets (.flushFile file next) none next

namespace Body

/-- What can have passed between a body and its surroundings when the body comes to a state. -/
inductive Dialogue (b : Body) : List Exchange → b.State → Prop
  | start : Dialogue b [] b.start
  | goOn {log : List Exchange} {exchange : Option Exchange} {s t : b.State} (h : Dialogue b log s)
      (hmeets : (b.next s).Meets exchange t) : Dialogue b (log ++ exchange.toList) t

/-- What can have passed when the body has come to its end. -/
def Ends (b : Body) (log : List Exchange) (result : Except CommandError Unit) : Prop :=
  ∃ s, b.Dialogue log s ∧ b.next s = .finish result

/-- What holds at the start and is kept by whatever passes holds in every dialogue. -/
theorem Dialogue.holds {b : Body} {I : List Exchange → b.State → Prop} (hstart : I [] b.start)
    (hstep : ∀ {log exchange s t}, I log s → (b.next s).Meets exchange t → I (log ++ exchange.toList) t)
    {log : List Exchange} {s : b.State} (h : b.Dialogue log s) : I log s := by
  induction h with
  | start => exact hstart
  | goOn _ hmeets ih => exact hstep ih hmeets

end Body

end CommandShell
