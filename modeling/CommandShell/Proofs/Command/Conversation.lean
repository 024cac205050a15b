import CommandShell.Proofs.Builtin.Copying

/-!
What a command hears and says, whatever its surroundings answer.  Main statement: the commands that pass their
input on say what they hear, piece by piece.
-/

namespace CommandShell

/-- A body goes on from a request: what it has been answered if it has read, what it has written if it has
written, and its next state. -/
inductive Request.Goes {σ : Type} : Request σ → List (Option String) → List OutputAction → σ → Prop
  | output (action next) : Goes (.output action next) [] [action] next
  | read (extent next answer) : Goes (.read extent next) [answer] [] (next answer)
  | errorOutput (action next) : Goes (.errorOutput action next) [] [] next
  | readKey (next key) : Goes (.readKey next) [] [] (next key)
  | flushKeys (next) : Goes (.flushKeys next) [] [] next
  | sleep (milliseconds next passed) : Goes (.sleep milliseconds next) [] [] (next passed)
  | checkCancelled (next cancelled) : Goes (.checkCancelled next) [] [] (next cancelled)
  | cancel (next) : Goes (.cancel next) [] [] next
  | endSession (hard next) : Goes (.endSession hard next) [] [] next
  | history (next lines) : Goes (.history next) [] [] (next lines)
  | sessions (next live) : Goes (.sessions next) [] [] (next live)
  | environment (change next before) : Goes (.environment change next) [] [] (next before)
  | load (path next text) : Goes (.load path next) [] [] (next text)
  | makeFoldersFor (path next) : Goes (.makeFoldersFor path next) [] [] next
  | openFile (path append next file) : Goes (.openFile path append next) [] [] (next file)
  | writeFile (file text next) : Goes (.writeFile file text next) [] [] next
  | flushFile (file next) : Goes (.flushFile file next) [] [] next

namespace Body

/-- What a body can have heard as answers to its reads and have written to its output when it comes to a
state. -/
inductive Conversation (b : Body) : List (Option String) → List OutputAction → b.State → Prop
  | start : Conversation b [] [] b.start
  | goOn {heard answers : List (Option String)} {said actions : List OutputAction} {s t : b.State}
      (h : Conversation b heard said s) (hgoes : (b.next s).Goes answers actions t) :
      Conversation b (heard ++ answers) (said ++ actions) t

/-- The body has come to its end. -/
def Finished (b : Body) (heard : List (Option String)) (said : List OutputAction) : Prop :=
  ∃ s result, b.Conversation heard said s ∧ b.next s = .finish result

/-- The texts that are answers. -/
def texts (heard : List (Option String)) : List String := heard.filterMap id

/-- A body that writes what it reads: `pending` is what of that is still to be written. -/
structure Copies (b : Body) (pending : b.State → List String) : Prop where
  start : pending b.start = []
  goes : ∀ {s t : b.State} {answers : List (Option String)} {actions : List OutputAction},
    (b.next s).Goes answers actions t →
    actions ++ (pending t).map .write = (pending s ++ texts answers).map .write
  finish : ∀ {s : b.State} {result : Except CommandError Unit}, b.next s = .finish result → pending s = []

variable {b : Body} {pending : b.State → List String} {heard : List (Option String)} {said : List OutputAction}

theorem Copies.said_append_pending (hb : b.Copies pending) {s : b.State} (h : b.Conversation heard said s) :
    said ++ (pending s).map .write = (texts heard).map .write := by
  induction h with
  | start => rw [hb.start]; rfl
  | goOn _ hgoes ih =>
      rename_i heard answers said actions s t
      rw [List.append_assoc, hb.goes hgoes, List.map_append, ← List.append_assoc, ih, texts, texts, texts,
        List.filterMap_append, List.map_append]

/-- When it ends, it has written the texts that it has read, each as it came. -/
theorem Copies.said_eq (hb : b.Copies pending) (h : b.Finished heard said) : said = (texts heard).map .write := by
  obtain ⟨s, result, hconversation, hfinish⟩ := h
  have hsaid := hb.said_append_pending hconversation
  rwa [hb.finish hfinish, List.map_nil, List.append_nil] at hsaid

/-- A body that ends at once hears and says nothing. -/
theorem said_eq_nil_of_finish {result : Except CommandError Unit} (hstart : b.next b.start = .finish result)
    (h : b.Finished heard said) : heard = [] ∧ said = [] := by
  obtain ⟨s, -, hconversation, -⟩ := h
  have hall : heard = [] ∧ said = [] ∧ s = b.start := by
    induction hconversation with
    | start => exact ⟨rfl, rfl, rfl⟩
    | goOn _ hgoes ih =>
        rw [ih.2.2, hstart] at hgoes
        cases hgoes
  exact ⟨hall.1, hall.2.1⟩

end Body

namespace Builtin

/-- What `passthrough` still has to write. -/
def Copying.pending : Copying → List String
  | .write text => [text]
  | .read | .done => []

/-- What `tee` still has to write to its output. -/
def Teeing.pending : Teeing → List String
  | .store _ text | .write _ text => [text]
  | .makeFolders | .openFile | .read _ | .flush _ | .check | .finish _ => []

theorem copies_copying : copying.Copies Copying.pending where
  start := rfl
  goes {s t answers actions} h := by
    cases s with
    | read => cases h with | read extent next answer => cases answer <;> rfl
    | write text => cases h; rfl
    | done => cases h
  finish {s result} h := by
    cases s with
    | done => rfl
    | read | write text => cases h

theorem copies_teeing (path : String) (append : Bool) : (teeing path append).Copies Teeing.pending where
  start := rfl
  goes {s t answers actions} h := by
    cases s with
    | read file => cases h with | read extent next answer => cases answer <;> rfl
    | makeFolders | openFile | store file text | write file text | flush file | check => cases h; rfl
    | finish cancelled => cases h
  finish {s result} h := by
    cases s with
    | finish cancelled => rfl
    | makeFolders | openFile | read file | store file text | write file text | flush file | check => cases h

/-- `passthrough` comes to its end when its input does. -/
theorem finished_copying (pieces : List String) :
    copying.Finished (pieces.map some ++ [none]) (pieces.map .write) := by
  have hread : copying.Conversation (pieces.map some) (pieces.map .write) .read := by
    induction pieces using List.reverseRecOn with
    | nil => exact .start
    | append_singleton pieces text ih =>
        have htext : copying.Conversation (pieces.map some ++ [some text]) (pieces.map .write ++ []) (.write text) :=
          ih.goOn (.read _ _ (some text))
        simpa using htext.goOn (.output _ _)
  refine ⟨.done, .ok (), ?_, rfl⟩
  simpa using hread.goOn (.read _ _ none)

/-- What `passthrough` and `tee` have written in the end are the texts that they have read. -/
theorem said_eq_of_finished {command : Command} (hcommand : command ∈ [passthrough, tee]) {context : Context}
    {call : Call} {heard : List (Option String)} {said : List OutputAction}
    (h : (command.body context call).Finished heard said) : said = (Body.texts heard).map .write := by
  obtain rfl | rfl : command = passthrough ∨ command = tee := by simpa using hcommand
  · exact copies_copying.said_eq h
  · rw [tee] at h
    dsimp only at h
    split at h
    · obtain ⟨rfl, rfl⟩ := Body.said_eq_nil_of_finish rfl h
      rfl
    · exact (copies_teeing _ _).said_eq h

end Builtin

end CommandShell
