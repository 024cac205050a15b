import CommandShell.Line.Arguments
import CommandShell.Proofs.Line.Grouping
import Mathlib.Algebra.Ring.Nat

/-!
Which tokens are split into arguments.  Main statement: the tokens are split exactly if they are values and
options one after another, no two options with one name, and then each token belongs to one argument.
-/

namespace CommandShell.Line

open Text

/-- An argument as it is written. -/
inductive Item where
  | value (text : Token)
  | flag (name : Token)
  | assigned (name equal value : Token)

/-- The name of an option, without the sign before it. -/
def Token.unsigned (t : Token) : String := String.ofList t.text.toList.tail

namespace Item

def tokens : Item → List Token
  | value t => [t]
  | flag name => [name]
  | assigned name equal v => [name, equal, v]

/-- The token that names an option. -/
def name? : Item → Option Token
  | value _ => none
  | flag name | assigned name _ _ => some name

def value? : Item → Option String
  | value t => some t.text
  | flag _ | assigned .. => none

def option? : Item → Option RawOption
  | value _ => none
  | flag name => some ⟨name.unsigned, none, name.position⟩
  | assigned name _ v => some ⟨name.unsigned, some v.text, name.position⟩

/-- The tokens are of the kinds that the argument needs, and the name is more than a sign.  No argument starts
with an equal sign, so that none follows a flag. -/
inductive WellFormed : Item → Prop
  | value {t : Token} : t.kind = .value → WellFormed (.value t)
  | flag {name : Token} : name.kind = .optionName → name.text.length ≠ 1 → WellFormed (.flag name)
  | assigned {name equal v : Token} : name.kind = .optionName → name.text.length ≠ 1 →
      equal.kind = .equalSign → v.kind = .value ∨ v.kind = .optionName → WellFormed (.assigned name equal v)

theorem WellFormed.named {i : Item} (hi : i.WellFormed) :
    ∀ name ∈ i.name?, name.kind = .optionName ∧ name.text.length ≠ 1 := by
  cases hi with
  | value => nofun
  | flag hkind hlength | assigned hkind hlength =>
      rintro _ ⟨⟩
      exact ⟨hkind, hlength⟩

theorem mem_tokens_of_name? {i : Item} {name : Token} (h : name ∈ i.name?) : name ∈ i.tokens := by
  cases i with
  | value => cases h
  | flag | assigned =>
      cases h
      exact List.mem_cons_self

end Item

/-- The tokens are arguments one after another, and no option is given twice. -/
structure ReadsAs (ts : List Token) (items : List Item) : Prop where
  tokens : items.flatMap Item.tokens = ts
  wellFormed : ∀ i ∈ items, i.WellFormed
  distinct : ((items.filterMap Item.option?).map (foldAscii ·.name)).Nodup

section Steps

variable {raw raw' : RawArguments} {t u v : Token} {ts : List Token} {n : String}

theorem optionName_eq_ok_iff : optionName raw t = .ok n ↔
    t.text.length ≠ 1 ∧ n = t.unsigned ∧ ∀ o ∈ raw.options, foldAscii o.name ≠ foldAscii n := by
  have hlength : t.text.length ≠ 1 ↔ ∀ c, t.text.toList ≠ [c] := by
    rw [← String.length_toList, Ne, List.length_eq_one_iff, not_exists]
  have hnew (n : String) : raw.options.any (fun o => eqIgnoringCase o.name n) = false ↔
      ∀ o ∈ raw.options, foldAscii o.name ≠ foldAscii n := by
    simp [List.any_eq_false, eqIgnoringCase_iff]
  rw [hlength, optionName]
  split
  · next c hc => exact ⟨nofun, fun h => absurd hc (h.1 c)⟩
  · next hlong =>
      dsimp only
      split
      · next hany =>
          refine ⟨nofun, ?_⟩
          rintro ⟨-, rfl, hall⟩
          rw [← hnew, Token.unsigned, hany] at hall
          cases hall
      · next hnone =>
          rw [Bool.not_eq_true, hnew] at hnone
          constructor
          · rintro ⟨⟩
            exact ⟨hlong, rfl, hnone⟩
          · rintro ⟨-, rfl, -⟩
            rfl

/-- An option without a value, if no equal sign follows. -/
theorem splitFrom_flag (hkind : t.kind = .optionName) (hname : optionName raw t = .ok n)
    (hts : ∀ u ∈ ts.head?, u.kind ≠ .equalSign) :
    splitFrom raw (t :: ts) = splitFrom (raw.pushOption ⟨n, none, t.position⟩) ts := by
  rw [splitFrom, hkind]
  dsimp only
  rw [hname]
  cases ts with
  | nil => rw [splitFrom]
  | cons u ts =>
      dsimp only
      rw [if_neg (hts u rfl)]

theorem splitFrom_assigned (hkind : t.kind = .optionName) (hname : optionName raw t = .ok n)
    (hu : u.kind = .equalSign) (hv : v.isWord = true) :
    splitFrom raw (t :: u :: v :: ts) = splitFrom (raw.pushOption ⟨n, some v.text, t.position⟩) ts := by
  rw [splitFrom, hkind]
  dsimp only
  rw [hname]
  dsimp only
  rw [if_pos hu, if_pos hv]

end Steps

/-! ### Arguments added one after another -/

/-- The arguments with one more. -/
def RawArguments.push (raw : RawArguments) : Item → RawArguments
  | .value t => raw.pushValue t.text
  | .flag name => raw.pushOption ⟨name.unsigned, none, name.position⟩
  | .assigned name _ v => raw.pushOption ⟨name.unsigned, some v.text, name.position⟩

theorem RawArguments.foldl_push (raw : RawArguments) (items : List Item) : items.foldl push raw =
    ⟨raw.positional ++ items.filterMap Item.value?, raw.options ++ items.filterMap Item.option?⟩ := by
  induction items generalizing raw with
  | nil => simp
  | cons i items ih =>
      rw [List.foldl_cons, ih]
      cases i <;> simp [push, pushValue, pushOption, List.filterMap_cons, Item.value?, Item.option?]

/-- No option has the name of another one but for the case of the letters A to Z. -/
def RawArguments.Distinct (raw : RawArguments) : Prop := (raw.options.map (foldAscii ·.name)).Nodup

section Run

variable {raw raw' : RawArguments} {i : Item} {items : List Item} {ts : List Token}

theorem RawArguments.Distinct.pushOption {t : Token} {name : String} {value : Option String} {pos : Nat}
    (h : raw.Distinct) (hname : optionName raw t = .ok name) : (raw.pushOption ⟨name, value, pos⟩).Distinct :=
  nodup_map_concat h (optionName_eq_ok_iff.1 hname).2.2

theorem optionName_of_distinct {name : Token} {value : Option String} (hlength : name.text.length ≠ 1)
    (h : (raw.pushOption ⟨name.unsigned, value, name.position⟩).Distinct) :
    optionName raw name = .ok name.unsigned := by
  refine optionName_eq_ok_iff.2 ⟨hlength, rfl, fun o ho => ?_⟩
  rw [RawArguments.Distinct, RawArguments.pushOption, List.map_append] at h
  exact (List.nodup_append.1 h).2.2 _ (List.mem_map_of_mem ho) _ (List.mem_singleton_self _)

/-- An argument that can be added is read off the front of the tokens. -/
theorem splitFrom_item (hi : i.WellFormed) (hdistinct : (raw.push i).Distinct)
    (hts : ∀ u ∈ ts.head?, u.kind ≠ .equalSign) : splitFrom raw (i.tokens ++ ts) = splitFrom (raw.push i) ts := by
  cases hi with
  | value hkind =>
      rw [Item.tokens, List.singleton_append, splitFrom, hkind]
      rfl
  | flag hkind hlength => exact splitFrom_flag hkind (optionName_of_distinct hlength hdistinct) hts
  | assigned hkind hlength hequal hv =>
      exact splitFrom_assigned hkind (optionName_of_distinct hlength hdistinct) hequal (isWord_iff.2 hv)

theorem kind_head_tokens (hitems : ∀ i ∈ items, i.WellFormed) :
    ∀ u ∈ (items.flatMap Item.tokens).head?, u.kind ≠ .equalSign := by
  rcases items with _ | ⟨i, items⟩
  · nofun
  · cases hitems i List.mem_cons_self with
    | value hkind | flag hkind | assigned hkind =>
        rintro _ ⟨⟩
        rw [hkind]
        nofun

theorem splitFrom_items (hitems : ∀ i ∈ items, i.WellFormed)
    (hdistinct : (items.foldl RawArguments.push raw).Distinct) :
    splitFrom raw (items.flatMap Item.tokens) = .ok (items.foldl RawArguments.push raw) := by
  induction items generalizing raw with
  | nil => rw [List.flatMap_nil, splitFrom, List.foldl_nil]
  | cons i items ih =>
      obtain ⟨hi, hitems⟩ := List.forall_mem_cons.1 hitems
      have hfirst : (raw.push i).Distinct := by
        rw [List.foldl_cons, RawArguments.foldl_push, RawArguments.Distinct, List.map_append] at hdistinct
        exact (List.nodup_append.1 hdistinct).1
      rw [List.flatMap_cons, splitFrom_item hi hfirst (kind_head_tokens hitems)]
      exact ih hitems hdistinct

/-- Tokens that are split are arguments, and these are what is added. -/
theorem exists_items (h : splitFrom raw ts = .ok raw') : ∃ items : List Item,
    items.flatMap Item.tokens = ts ∧ (∀ i ∈ items, i.WellFormed) ∧ raw' = items.foldl RawArguments.push raw := by
  fun_induction splitFrom raw ts with
  | case1 raw =>
      cases h
      exact ⟨[], rfl, List.forall_mem_nil _, rfl⟩
  | case2 raw t ts hkind ih =>
      obtain ⟨items, rfl, hitems, rfl⟩ := ih h
      exact ⟨.value t :: items, rfl, List.forall_mem_cons.2 ⟨.value hkind, hitems⟩, rfl⟩
  | case4 raw t hkind name hname =>
      cases h
      obtain ⟨hlength, rfl, -⟩ := optionName_eq_ok_iff.1 hname
      exact ⟨[.flag t], rfl, List.forall_mem_singleton.2 (.flag hkind hlength), rfl⟩
  | case6 raw t hkind name hname u hu v rest hv ih =>
      obtain ⟨items, rfl, hitems, rfl⟩ := ih h
      obtain ⟨hlength, rfl, -⟩ := optionName_eq_ok_iff.1 hname
      have hi : Item.WellFormed (.assigned t u v) := .assigned hkind hlength hu (isWord_iff.1 hv)
      exact ⟨.assigned t u v :: items, rfl, List.forall_mem_cons.2 ⟨hi, hitems⟩, rfl⟩
  | case8 raw t hkind name hname u rest hu ih =>
      obtain ⟨items, htokens, hitems, rfl⟩ := ih h
      obtain ⟨hlength, rfl, -⟩ := optionName_eq_ok_iff.1 hname
      refine ⟨.flag t :: items, ?_, List.forall_mem_cons.2 ⟨.flag hkind hlength, hitems⟩, rfl⟩
      rw [List.flatMap_cons, htokens]
      rfl
  | case3 | case5 | case7 | case9 | case10 | case11 => cases h

theorem RawArguments.Distinct.splitFrom (h : raw.Distinct) (hs : Line.splitFrom raw ts = .ok raw') :
    raw'.Distinct := by
  fun_induction Line.splitFrom raw ts with
  | case1 raw =>
      cases hs
      exact h
  | case2 raw t ts _ ih => exact ih h hs
  | case4 raw t _ name hname =>
      cases hs
      exact h.pushOption hname
  | case6 raw t _ name hname _ _ v rest _ ih => exact ih (h.pushOption hname) hs
  | case8 raw t _ name hname _ rest _ ih => exact ih (h.pushOption hname) hs
  | case3 | case5 | case7 | case9 | case10 | case11 => cases hs

theorem splitArguments_eq_ok_iff : splitArguments ts = .ok raw ↔ ∃ items, ReadsAs ts.tail items ∧
    raw = ⟨items.filterMap Item.value?, items.filterMap Item.option?⟩ := by
  have hresult (items : List Item) : items.foldl RawArguments.push {} =
      ⟨items.filterMap Item.value?, items.filterMap Item.option?⟩ := by
    rw [RawArguments.foldl_push, List.nil_append, List.nil_append]
  have hempty : RawArguments.Distinct {} := List.nodup_nil
  rw [splitArguments]
  constructor
  · intro h
    have hdistinct := hempty.splitFrom h
    obtain ⟨items, htokens, hitems, rfl⟩ := exists_items h
    rw [hresult] at hdistinct ⊢
    exact ⟨items, ⟨htokens, hitems, hdistinct⟩, rfl⟩
  · rintro ⟨items, ⟨htokens, hitems, hdistinct⟩, rfl⟩
    rw [← htokens, ← hresult]
    refine splitFrom_items hitems ?_
    rw [hresult]
    exact hdistinct

end Run

/-! ### Each token belongs to one argument -/

section Unique

variable {i j : Item} {items others : List Item} {ts us : List Token}

theorem tokens_append_inj (hi : i.WellFormed) (hj : j.WellFormed) (hts : ∀ u ∈ ts.head?, u.kind ≠ .equalSign)
    (hus : ∀ u ∈ us.head?, u.kind ≠ .equalSign) (h : i.tokens ++ ts = j.tokens ++ us) : i = j ∧ ts = us := by
  cases hi with
  | value hkind =>
      cases hj with
      | value =>
          cases h
          exact ⟨rfl, rfl⟩
      | flag hother | assigned hother =>
          cases h
          cases hkind.symm.trans hother
  | flag hkind =>
      cases hj with
      | value hother =>
          cases h
          cases hkind.symm.trans hother
      | flag =>
          cases h
          exact ⟨rfl, rfl⟩
      | assigned _ _ hequal =>
          cases h
          exact absurd hequal (hts _ rfl)
  | assigned hkind _ hequal =>
      cases hj with
      | value hother =>
          cases h
          cases hkind.symm.trans hother
      | flag =>
          cases h
          exact absurd hequal (hus _ rfl)
      | assigned =>
          cases h
          exact ⟨rfl, rfl⟩

theorem flatMap_tokens_inj (hitems : ∀ i ∈ items, i.WellFormed) (hothers : ∀ i ∈ others, i.WellFormed)
    (h : items.flatMap Item.tokens = others.flatMap Item.tokens) : items = others := by
  have hne (i : Item) (ts : List Token) : i.tokens ++ ts ≠ [] := by cases i <;> nofun
  induction items generalizing others with
  | nil =>
      cases others with
      | nil => rfl
      | cons j others => exact absurd h.symm (hne j _)
  | cons i items ih =>
      cases others with
      | nil => exact absurd h (hne i _)
      | cons j others =>
          obtain ⟨hi, hitems⟩ := List.forall_mem_cons.1 hitems
          obtain ⟨hj, hothers⟩ := List.forall_mem_cons.1 hothers
          obtain ⟨heq, hrest⟩ := tokens_append_inj hi hj (kind_head_tokens hitems) (kind_head_tokens hothers) h
          rw [heq, ih hitems hothers hrest]

end Unique

/-- How many tokens an option takes. -/
def RawOption.width (o : RawOption) : Nat := if o.value.isSome then 3 else 1

theorem length_flatMap_tokens (items : List Item) : (items.flatMap Item.tokens).length =
    (items.filterMap Item.value?).length + ((items.filterMap Item.option?).map RawOption.width).sum := by
  induction items with
  | nil => rfl
  | cons i items ih =>
      rw [List.flatMap_cons, List.length_append, ih]
      cases i <;>
        simp [Item.tokens, Item.value?, Item.option?, RawOption.width, List.filterMap_cons] <;> omega

/-- Splitting is exact: it fails only where the tokens are not arguments one after another or an option is given
twice, and then each token belongs to one value or one option.  A name without a character is not refused; where
there is none, all names have a sign and more. -/
theorem split_exact (ts : List Token) :
    ((∃ raw, splitArguments ts = .ok raw) ↔ ∃ items, ReadsAs ts.tail items) ∧
    (∀ raw, splitArguments ts = .ok raw →
      (∃! items, ReadsAs ts.tail items ∧
        raw.positional = items.filterMap Item.value? ∧ raw.options = items.filterMap Item.option?) ∧
      ts.tail.length = raw.positional.length + (raw.options.map RawOption.width).sum) ∧
    ((∀ t ∈ ts.tail, t.kind = .optionName → t.text ≠ "") →
      ∀ items, ReadsAs ts.tail items → ∀ i ∈ items, ∀ name ∈ i.name?, 2 ≤ name.text.length) := by
  refine ⟨?_, fun raw h => ⟨?_, ?_⟩, fun hne items hitems i hi name hname => ?_⟩
  · constructor
    · rintro ⟨raw, h⟩
      obtain ⟨items, hitems, -⟩ := splitArguments_eq_ok_iff.1 h
      exact ⟨items, hitems⟩
    · rintro ⟨items, hitems⟩
      exact ⟨_, splitArguments_eq_ok_iff.2 ⟨items, hitems, rfl⟩⟩
  · obtain ⟨items, hitems, rfl⟩ := splitArguments_eq_ok_iff.1 h
    refine ⟨items, ⟨hitems, rfl, rfl⟩, fun others hothers => ?_⟩
    exact flatMap_tokens_inj hothers.1.wellFormed hitems.wellFormed (hothers.1.tokens.trans hitems.tokens.symm)
  · obtain ⟨items, hitems, rfl⟩ := splitArguments_eq_ok_iff.1 h
    rw [← hitems.tokens, length_flatMap_tokens]
  · have hmem : name ∈ ts.tail := by
      rw [← hitems.tokens]
      exact List.mem_flatMap.2 ⟨i, hi, Item.mem_tokens_of_name? hname⟩
    obtain ⟨hkind, hlength⟩ := (hitems.wellFormed i hi).named name hname
    have hpos : name.text.length ≠ 0 := by simpa using hne name hmem hkind
    omega

/-- A value, an option whose value looks like an option, a flag and a quoted value. -/
def signed : List Token :=
  [⟨.value, "c", 1, false⟩, ⟨.value, "a", 3, false⟩, ⟨.optionName, "/n", 5, false⟩, ⟨.equalSign, "=", 8, false⟩,
    ⟨.optionName, "-5", 10, false⟩, ⟨.optionName, "-f", 13, false⟩, ⟨.value, "-x", 16, true⟩]

theorem split_exact_of_signs :
    tokenize "c a /n = -5 -f \"-x\"" = .ok signed ∧ (∀ t ∈ signed.tail, t.kind = .optionName → t.text ≠ "") ∧
    ∃ raw items, splitArguments signed = .ok raw ∧ ReadsAs signed.tail items ∧
      (∀ i ∈ items, ∀ name ∈ i.name?, 2 ≤ name.text.length) ∧ raw.positional = ["a", "-x"] ∧
      raw.options = [⟨"n", some "-5", 5⟩, ⟨"f", none, 13⟩] ∧
      signed.tail.length = raw.positional.length + (raw.options.map RawOption.width).sum := by
  have hsplit : splitArguments signed = .ok ⟨["a", "-x"], [⟨"n", some "-5", 5⟩, ⟨"f", none, 13⟩]⟩ := by rfl
  have hne : ∀ t ∈ signed.tail, t.kind = .optionName → t.text ≠ "" := by decide
  obtain ⟨-, hresult, hnames⟩ := split_exact signed
  obtain ⟨⟨items, ⟨hitems, -⟩, -⟩, hlength⟩ := hresult _ hsplit
  exact ⟨by rfl, hne, _, items, hsplit, hitems, hnames hne items hitems, rfl, rfl, hlength⟩

/-- An option token without a character is taken for an option without a name, though it has not even a sign. -/
theorem split_of_empty_name :
    let ts : List Token := [⟨.value, "c", 1, false⟩, ⟨.optionName, "", 3, false⟩]
    splitArguments ts = .ok ⟨[], [⟨"", none, 3⟩]⟩ ∧
      ¬∃ items, ReadsAs ts.tail items ∧ ∀ i ∈ items, ∀ name ∈ i.name?, 2 ≤ name.text.length := by
  intro ts
  refine ⟨by rfl, ?_⟩
  rintro ⟨items, ⟨htokens, hitems, -⟩, hlong⟩
  have hflag : items = [.flag ⟨.optionName, "", 3, false⟩] :=
    flatMap_tokens_inj hitems (List.forall_mem_singleton.2 (.flag rfl (by decide))) htokens
  subst hflag
  exact absurd (hlong _ (List.mem_singleton_self _) _ rfl) (by decide)

end CommandShell.Line
