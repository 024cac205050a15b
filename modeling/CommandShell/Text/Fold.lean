import CommandShell.Text.Case
import CommandShell.Text.CharSet
import CommandShell.Text.Recent

/-!
Characters that are equal but for letter case.
-/

namespace CommandShell.Text

/-- Small letters that are another form of some other small letter. -/
def letterForms : List (Char × Char) :=
  [('µ', 'μ'), ('ſ', 's'), ('\u0345', 'ι'), ('ς', 'σ'), ('ϐ', 'β'), ('ϑ', 'θ'), ('ϕ', 'φ'),
   ('ϖ', 'π'), ('ϰ', 'κ'), ('ϱ', 'ρ'), ('ϵ', 'ε'), ('\u1c80', 'в'), ('\u1c81', 'д'),
   ('\u1c82', 'о'), ('\u1c83', 'с'), ('\u1c84', 'т'), ('\u1c85', 'т'), ('\u1c86', 'ъ'),
   ('\u1c87', 'ѣ'), ('\u1c88', 'ꙋ'), ('ẛ', 'ṡ'), ('\u1fbe', 'ι'), ('\u1fd3', 'ΐ'),
   ('\u1fe3', 'ΰ'), ('\ufb05', '\ufb06')]

/-- The main form of a small letter. -/
def mainForm (small : Char) : Char :=
  match letterForms.find? (·.1 == small) with
  | some form => form.2
  | none => small

/-- The capitals that are equal to a small letter but for case, with that letter. -/
def casePairs : List (Char × Char) :=
  (List.range 26).map (fun k => (Char.ofNat (0x41 + k), Char.ofNat (0x61 + k))) ++
    capitalRuns.flatMap fun r =>
      (r.capitals.filter (!isRecent ·)).map fun n => (Char.ofNat n, Char.ofNat (n + r.offset).toNat)

/-- The characters with another form, each with the one that stands for all its forms. -/
def foldPairs : List (Char × Char) :=
  (casePairs.map fun p => (p.1, mainForm p.2)) ++ letterForms

/-- All characters that are equal to one of the set but for case. -/
def CharSet.closeUnderCase (s : CharSet) : CharSet :=
  let met := foldPairs.filterMap fun p => if s.contains p.1 || s.contains p.2 then some p.2 else none
  let mains := met.foldr (fun c t => (ofChar c).union t) empty
  foldPairs.foldr (fun p t => if mains.contains p.2 then (ofChar p.1).union t else t) (s.union mains)

end CommandShell.Text
