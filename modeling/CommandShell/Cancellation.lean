/-!
Tokens that are cancelled once and for all, with the callbacks that run when they are.  Cancelling
a token cancels its children.  Main statement: marking a token leaves fewer to be cancelled, so
cancelling ends.
-/

namespace CommandShell

abbrev TokenId := Nat

/-- What happens when a token is cancelled. -/
inductive Callback where
  | notify (label : String)
  | cancel (child : TokenId)
  deriving DecidableEq, Repr

/-- A token with its callbacks in the order of registration, each under a number of its own. -/
structure CancelToken where
  id : TokenId
  cancelled : Bool := false
  callbacks : List (Nat × Callback) := []
  nextCallback : Nat := 0
  deriving DecidableEq, Repr

/-- What keeps a callback registered. -/
structure Guard where
  token : TokenId
  callback : Nat
  deriving DecidableEq, Repr

/-- The tokens that something still holds. -/
structure CancelTree where
  tokens : List CancelToken := []
  next : TokenId := 0
  deriving DecidableEq, Repr

namespace CancelTree

def get? (t : CancelTree) (id : TokenId) : Option CancelToken := t.tokens.find? (·.id == id)

def isCancelled (t : CancelTree) (id : TokenId) : Bool :=
  match t.get? id with
  | some token => token.cancelled
  | none => false

/-- Changes the token of a number. -/
def update (t : CancelTree) (id : TokenId) (change : CancelToken → CancelToken) : CancelTree :=
  { t with tokens := t.tokens.map fun token => if token.id = id then change token else token }

/-- A new token that nothing cancels but itself. -/
def new (t : CancelTree) : TokenId × CancelTree :=
  (t.next, { tokens := t.tokens ++ [{ id := t.next }], next := t.next + 1 })

/-- Lets go of a token; its callbacks are gone with it. -/
def drop (t : CancelTree) (id : TokenId) : CancelTree :=
  { t with tokens := t.tokens.filter (·.id != id) }

/-- Sets a token to cancelled. -/
def mark (t : CancelTree) (id : TokenId) : CancelTree :=
  t.update id fun token => { token with cancelled := true }

/-- How many tokens are not cancelled. -/
def live (t : CancelTree) : Nat := t.tokens.countP (!·.cancelled)

theorem live_mark (t : CancelTree) (id : TokenId) :
    (t.mark id).live = t.tokens.countP fun token => !token.cancelled && token.id != id := by
  simp only [live, mark, update, List.countP_map]
  congr 1
  funext token
  by_cases h : token.id = id <;> simp [h]

theorem live_mark_lt {t : CancelTree} {id : TokenId} {token : CancelToken} (h : t.get? id = some token)
    (hc : token.cancelled = false) : (t.mark id).live < t.live := by
  rw [live_mark, live]
  unfold get? at h
  generalize t.tokens = us at h
  induction us with
  | nil => simp at h
  | cons u us ih =>
    have le : us.countP (fun token => !token.cancelled && token.id != id) ≤
        us.countP (!·.cancelled) := List.countP_mono_left (by simp_all)
    by_cases hu : u.id = id
    · obtain rfl : u = token := by simpa [List.find?_cons, hu] using h
      simp only [List.countP_cons, hc, hu]
      simp
      omega
    · have := ih (by simpa [List.find?_cons, hu] using h)
      simp only [List.countP_cons]
      cases u.cancelled <;> simp [hu] <;> omega

/-- Runs callbacks in order, and with each cancelled token its own; the labels that are notified. -/
def runAll (t : CancelTree) (pending : List Callback) : CancelTree × List String :=
  match pending with
  | [] => (t, [])
  | .notify label :: rest =>
    let (t, labels) := t.runAll rest
    (t, label :: labels)
  | .cancel id :: rest =>
    match _h : t.get? id with
    | none => t.runAll rest
    | some token =>
      if _hc : token.cancelled = true then t.runAll rest
      else (t.mark id).runAll (token.callbacks.map (·.2) ++ rest)
termination_by (t.live, pending.length)
decreasing_by
  · exact Prod.Lex.right _ (Nat.lt_succ_self _)
  · exact Prod.Lex.right _ (Nat.lt_succ_self _)
  · exact Prod.Lex.right _ (Nat.lt_succ_self _)
  · exact Prod.Lex.left _ _ (live_mark_lt _h (by simpa using _hc))

/-- Cancels a token and all that hangs on it; the labels that are notified. -/
def cancel (t : CancelTree) (id : TokenId) : CancelTree × List String := t.runAll [.cancel id]

/-- Registers a callback, which runs at once if the token is cancelled already. -/
def register (t : CancelTree) (id : TokenId) (callback : Callback) :
    Guard × CancelTree × List String :=
  match t.get? id with
  | none => (⟨id, 0⟩, t, [])
  | some token =>
    let registered := t.update id fun token =>
      { token with
        callbacks := token.callbacks ++ [(token.nextCallback, callback)]
        nextCallback := token.nextCallback + 1 }
    let (t, labels) := if token.cancelled then registered.runAll [callback] else (registered, [])
    (⟨id, token.nextCallback⟩, t, labels)

/-- A token that is cancelled with its parent as long as the guard is held. -/
def child (t : CancelTree) (parent : TokenId) : TokenId × Guard × CancelTree × List String :=
  let (id, t) := t.new
  let (guard, t, labels) := t.register parent (.cancel id)
  (id, guard, t, labels)

/-- Unregisters a callback. -/
def release (t : CancelTree) (g : Guard) : CancelTree :=
  t.update g.token fun token =>
    { token with callbacks := token.callbacks.filter (·.1 != g.callback) }

end CancelTree

end CommandShell
