/-!
Queues.  The view of a queue is `toList`, the elements in the order in which they leave; the main
statements say what each operation does to it.
-/

namespace CommandShell

universe u

/-- A queue, which holds the elements that leave first in their order and those behind them the other
way round. -/
structure Queue (α : Type u) where
  front : List α := []
  back : List α := []
  size : Nat := 0
  size_eq : size = front.length + back.length := by simp
  deriving Repr

namespace Queue

variable {α : Type u}

theorem size_eq_nil : 0 = ([] : List α).length + ([] : List α).length := rfl

def empty : Queue α := { size_eq := size_eq_nil }

def isEmpty (q : Queue α) : Bool := q.size == 0

/-- The elements, that which leaves next first. -/
def toList (q : Queue α) : List α := q.front ++ q.back.reverse

/-- Adds an element behind all others. -/
def push (q : Queue α) (a : α) : Queue α :=
  { q with back := a :: q.back, size := q.size + 1, size_eq := by simp [q.size_eq, Nat.add_assoc] }

/-- The next element and the queue without it. -/
def pop? (q : Queue α) : Option (α × Queue α) :=
  match h : q.front with
  | a :: rest =>
    some (a, { q with
      front := rest, size := q.size - 1, size_eq := by have := q.size_eq; simp_all })
  | [] =>
    match hb : q.back.reverse with
    | a :: rest =>
      some (a, {
        front := rest, size := q.size - 1
        size_eq := by
          have := q.size_eq
          have := congrArg List.length hb
          simp_all })
    | [] => none

@[simp] theorem toList_empty : (empty : Queue α).toList = [] := rfl

@[simp] theorem toList_push (q : Queue α) (a : α) : (q.push a).toList = q.toList ++ [a] := by
  simp [toList, push]

theorem size_eq_length (q : Queue α) : q.size = q.toList.length := by
  simp [toList, q.size_eq]

@[simp] theorem isEmpty_eq (q : Queue α) : q.isEmpty = q.toList.isEmpty := by
  rw [isEmpty, size_eq_length]
  cases q.toList <;> simp

theorem toList_of_pop? {q r : Queue α} {a : α} (h : q.pop? = some (a, r)) :
    q.toList = a :: r.toList := by
  rw [pop?] at h
  split at h
  · next hf => cases h; simp [toList, hf]
  · next hf =>
    split at h
    · next hb => cases h; simp [toList, hf, hb]
    · cases h

theorem pop?_eq_none_iff {q : Queue α} : q.pop? = none ↔ q.toList = [] := by
  rw [pop?]
  split
  · next hf => simp [toList, hf]
  · next hf =>
    split
    · next hb => simp [toList, hf, hb]
    · next hb => simp [toList, hf, hb]

end Queue

end CommandShell
