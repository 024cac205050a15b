import CommandShell.Line.Expansion
import CommandShell.Text.Pieces
import Mathlib.Data.List.Basic

/-!
What the variables of a line are replaced by.  Main statement: the pieces of the line between its percent
signs are, by turns, kept and looked up; a line can be cut behind each pair of percent signs, and what has
been looked up is not looked at again.
-/

namespace CommandShell.Line

open Text

variable (lookup : String → Option String)

/-- What stands for a name between two percent signs: its value if there is one, and a percent sign for no
name at all. -/
def valueOf (name : List Char) : List Char :=
  if name.isEmpty then ['%'] else ((lookup (String.ofList name)).getD "").toList

/-- What piece number `i` of `count` pieces comes to.  Those with odd numbers are names, but the last piece has
no percent sign behind it. -/
def pieceText (count i : Nat) (piece : List Char) : List Char :=
  if i % 2 = 0 then piece
  else if i + 1 = count then '%' :: piece
  else valueOf lookup piece

/-- What the pieces of a line between its percent signs come to. -/
def piecesText (pieces : List (List Char)) : List Char :=
  (pieces.mapIdx (pieceText lookup pieces.length)).flatten

/-- Two pieces more in front change nothing for a piece. -/
theorem pieceText_add_two (count : Nat) :
    (fun i => pieceText lookup (count + 2) (i + 2)) = pieceText lookup count := by
  funext i piece
  have hlast : i + 2 + 1 = count + 2 ↔ i + 1 = count := by omega
  simp only [pieceText, Nat.add_mod_right, hlast]

theorem piecesText_singleton (p : List Char) : piecesText lookup [p] = p := by
  simp [piecesText, pieceText]

theorem piecesText_pair (p q : List Char) : piecesText lookup [p, q] = p ++ '%' :: q := by
  simp [piecesText, pieceText]

theorem piecesText_cons (p q r : List Char) (rest : List (List Char)) :
    piecesText lookup (p :: q :: r :: rest) = p ++ (valueOf lookup q ++ piecesText lookup (r :: rest)) := by
  have hname : pieceText lookup ((r :: rest).length + 2) 1 q = valueOf lookup q := by
    simp [pieceText]
  rw [piecesText, List.mapIdx_cons, List.mapIdx_cons, List.flatten_cons, List.flatten_cons]
  change p ++ (pieceText lookup ((r :: rest).length + 2) 1 q ++
    ((r :: rest).mapIdx fun i => pieceText lookup ((r :: rest).length + 2) (i + 2)).flatten) = _
  rw [hname, pieceText_add_two, piecesText]

section Expanding

variable {lookup : String → Option String} {p : List Char}

theorem expandFrom_append_of_notMem (hp : '%' ∉ p) (cs : List Char) :
    expandFrom lookup none (p ++ cs) = p ++ expandFrom lookup none cs := by
  induction p with
  | nil => rfl
  | cons c p ih =>
      obtain ⟨hc, hp⟩ := not_or.1 (mt List.mem_cons.2 hp)
      rw [List.cons_append, expandFrom, if_neg (Ne.symm hc), ih hp]
      rfl

theorem expandFrom_closed_cons (name cs : List Char) :
    expandFrom lookup (some name) ('%' :: cs) = valueOf lookup name ++ expandFrom lookup none cs := by
  rw [expandFrom, if_pos rfl, valueOf]
  split <;> rfl

theorem expandFrom_closed (hp : '%' ∉ p) (name cs : List Char) :
    expandFrom lookup (some name) (p ++ '%' :: cs) = valueOf lookup (name ++ p) ++ expandFrom lookup none cs := by
  induction p generalizing name with
  | nil => rw [List.nil_append, List.append_nil, expandFrom_closed_cons]
  | cons c p ih =>
      obtain ⟨hc, hp⟩ := not_or.1 (mt List.mem_cons.2 hp)
      rw [List.cons_append, expandFrom, if_neg (Ne.symm hc), ih hp, List.append_assoc, List.singleton_append]

theorem expandFrom_unclosed (hp : '%' ∉ p) (name : List Char) :
    expandFrom lookup (some name) p = '%' :: (name ++ p) := by
  induction p generalizing name with
  | nil => rw [expandFrom, List.append_nil]
  | cons c p ih =>
      obtain ⟨hc, hp⟩ := not_or.1 (mt List.mem_cons.2 hp)
      rw [expandFrom, if_neg (Ne.symm hc), ih hp, List.append_assoc, List.singleton_append]

theorem expandFrom_joinPieces {ps : List (List Char)} (hne : ps ≠ []) (hps : ∀ p ∈ ps, '%' ∉ p) :
    expandFrom lookup none (joinPieces ['%'] ps) = piecesText lookup ps := by
  match ps with
  | [] => exact absurd rfl hne
  | [p] =>
      have hp := hps p (by simp)
      rw [joinPieces, piecesText_singleton, ← List.append_nil p, expandFrom_append_of_notMem hp, expandFrom]
  | [p, q] =>
      have hp := hps p (by simp)
      have hq := hps q (by simp)
      rw [joinPieces, joinPieces, List.append_assoc, List.singleton_append, expandFrom_append_of_notMem hp, expandFrom,
        if_pos rfl, expandFrom_unclosed hq, piecesText_pair, List.nil_append]
  | p :: q :: r :: rest =>
      have hp := hps p (by simp)
      have hq := hps q (by simp)
      have ih := expandFrom_joinPieces (List.cons_ne_nil r rest) fun s hs => hps s (by simp_all)
      rw [joinPieces, joinPieces, List.append_assoc, List.append_assoc, List.singleton_append, List.singleton_append,
        expandFrom_append_of_notMem hp, expandFrom, if_pos rfl, expandFrom_closed hq, ih, piecesText_cons,
        List.nil_append]

theorem expandFrom_eq_piecesText (cs : List Char) :
    expandFrom lookup none cs = piecesText lookup (pieces (· == '%') cs) := by
  have hps : ∀ p ∈ pieces (· == '%') cs, '%' ∉ p := by
    intro p hp hmem
    simpa using mem_pieces hp '%' hmem
  rw [← expandFrom_joinPieces (pieces_ne_nil _ cs) hps, joinPieces_pieces]

/-- After an even number of percent signs no name is open. -/
theorem expandFrom_append (a b : List Char) :
    (a.count '%' % 2 = 0 → expandFrom lookup none (a ++ b) = expandFrom lookup none a ++ expandFrom lookup none b) ∧
      ∀ name, a.count '%' % 2 = 1 →
        expandFrom lookup (some name) (a ++ b) = expandFrom lookup (some name) a ++ expandFrom lookup none b := by
  induction a with
  | nil => simp [expandFrom]
  | cons c a ih =>
      obtain ⟨hplain, hnamed⟩ := ih
      by_cases hc : c = '%'
      · subst hc
        rw [List.count_cons_self]
        constructor
        · intro hcount
          simp only [List.cons_append, expandFrom, if_pos]
          exact hnamed [] (by omega)
        · intro name hcount
          rw [List.cons_append, expandFrom_closed_cons, expandFrom_closed_cons, hplain (by omega), List.append_assoc]
      · rw [List.count_cons_of_ne hc]
        simp only [List.cons_append, expandFrom, if_neg hc]
        exact ⟨fun hcount => by rw [hplain hcount], fun name => hnamed _⟩

theorem expandVariables_append {a : String} (ha : a.toList.count '%' % 2 = 0) (b : String) :
    expandVariables lookup (a ++ b) = expandVariables lookup a ++ expandVariables lookup b := by
  rw [expandVariables, String.toList_append, (expandFrom_append _ _).1 ha, String.ofList_append]
  rfl

theorem expandVariables_of_notMem {line : String} (h : '%' ∉ line.toList) : expandVariables lookup line = line := by
  rw [expandVariables, ← List.append_nil line.toList, expandFrom_append_of_notMem h, expandFrom, List.append_nil,
    String.ofList_toList]

theorem expandVariables_name {name : String} (hne : name ≠ "") (h : '%' ∉ name.toList) :
    expandVariables lookup ("%" ++ name ++ "%") = (lookup name).getD "" := by
  have hline : ("%" ++ name ++ "%").toList = '%' :: (name.toList ++ ['%']) := by simp
  rw [expandVariables, hline, expandFrom, if_pos rfl, expandFrom_closed h, valueOf]
  simp [hne, expandFrom]

/-- The characters of a text with each percent sign written twice. -/
def doublePercent (cs : List Char) : List Char := cs.flatMap fun c => if c = '%' then ['%', '%'] else [c]

theorem expandFrom_doublePercent (cs rest : List Char) :
    expandFrom lookup none (doublePercent cs ++ rest) = cs ++ expandFrom lookup none rest := by
  induction cs with
  | nil => rfl
  | cons c cs ih =>
      rw [doublePercent, List.flatMap_cons, List.append_assoc]
      change expandFrom lookup none (_ ++ (doublePercent cs ++ rest)) = _
      by_cases hc : c = '%'
      · simp [hc, expandFrom, ih]
      · simp [hc, expandFrom, ih]

end Expanding

/-- What a line expands to: its first piece is kept, and of the others by turns one is a name that is looked up
and one is kept.  So a line can be cut behind an even number of percent signs; a line without them is kept; a
value stands in the result as it is, whatever percent signs it has; and percent signs that are written twice
come to themselves. -/
theorem expandVariables_exact :
    (∀ line : String, (expandVariables lookup line).toList = piecesText lookup (pieces (· == '%') line.toList)) ∧
      (∀ a b : String, a.toList.count '%' % 2 = 0 →
        expandVariables lookup (a ++ b) = expandVariables lookup a ++ expandVariables lookup b) ∧
      (∀ line : String, '%' ∉ line.toList → expandVariables lookup line = line) ∧
      (∀ a name b : String, a.toList.count '%' % 2 = 0 → name ≠ "" → '%' ∉ name.toList →
        expandVariables lookup (a ++ ("%" ++ name ++ "%" ++ b)) =
          expandVariables lookup a ++ ((lookup name).getD "" ++ expandVariables lookup b)) ∧
      ∀ text : String, expandVariables lookup (String.ofList (doublePercent text.toList)) = text := by
  refine ⟨?_, fun a b ha => expandVariables_append ha b, fun line => expandVariables_of_notMem, ?_, ?_⟩
  · intro line
    rw [expandVariables, String.toList_ofList, expandFrom_eq_piecesText]
  · intro a name b ha hne hname
    have hcount : ("%" ++ name ++ "%").toList.count '%' % 2 = 0 := by
      simp [List.count_eq_zero.2 hname]
    rw [expandVariables_append ha, expandVariables_append hcount, expandVariables_name hne hname]
  · intro text
    rw [expandVariables, String.toList_ofList, ← List.append_nil (doublePercent _), expandFrom_doublePercent, expandFrom,
      List.append_nil, String.ofList_toList]

/-- A value with percent signs, between a percent sign that is written twice and one that nothing closes. -/
theorem expandVariables_exact_of_value :
    let lookup : String → Option String := fun name => if name = "user" then some "%dir%" else none
    "5%% ".toList.count '%' % 2 = 0 ∧ "user" ≠ "" ∧ '%' ∉ "user".toList ∧
      expandVariables lookup "5%% %user% and %dir" = "5% %dir% and %dir" ∧
      (expandVariables lookup "5%% %user% and %dir").toList =
        piecesText lookup ["5".toList, [], " ".toList, "user".toList, " and ".toList, "dir".toList] := by
  intro lookup
  obtain ⟨hpieces, -, -, hname, -⟩ := expandVariables_exact lookup
  have hcount : "5%% ".toList.count '%' % 2 = 0 := by decide
  have hplain : '%' ∉ "user".toList := by decide
  exact ⟨hcount, by decide, hplain, hname "5%% " "user" " and %dir" hcount (by decide) hplain,
    hpieces "5%% %user% and %dir"⟩

end CommandShell.Line
