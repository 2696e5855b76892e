import BslNav.Text.LowerCase.Table

/-!
# BslNav.Text.LowerCase

Full lower-casing of a text.

Every character is replaced by its lower-case form.  Two letters need more
than the table: `'İ'` becomes an `'i'` followed by a dot above, and a capital
sigma takes the form that ends a word when a cased letter comes before it and
none comes after it, marks and the like passed over.
-/

namespace BslNav

/-- The character does not separate a sigma from the letters around it. -/
def isCaseIgnorable (c : Char) : Bool := inRanges caseIgnorableRanges c.toNat

/-- The character is a letter with case. -/
def isCased (c : Char) : Bool := inRanges casedRanges c.toNat

/-- The lower-case form of a character by itself. -/
def lowerForm (c : Char) : List Char :=
  if c = 'İ' then ['i', '\u0307']
  else
    match lowerCaseRuns.find? (·.covers c.toNat) with
    | some run => [Char.ofNat (c.toNat + run.shift).toNat]
    | none => [c]

/-- The first character that is not passed over is a cased letter. -/
def meetsCased (cs : List Char) : Bool :=
  (cs.dropWhile isCaseIgnorable).head?.any isCased

/-- A sigma with `before` on its left, nearest character first, and `after` on
its right is the last letter of a word. -/
def endsWord (before after : List Char) : Bool := meetsCased before && !meetsCased after

/-- Lower-case the rest of a text whose beginning is `before`, nearest
character first. -/
def lowerAfter (before : List Char) : List Char → List Char
  | [] => []
  | c :: cs =>
      (if c = 'Σ' then [if endsWord before cs then 'ς' else 'σ'] else lowerForm c) ++
        lowerAfter (c :: before) cs

/-- The text in lower case. -/
def lowerCase (text : String) : String := String.ofList (lowerAfter [] text.toList)

theorem toList_lowerCase (text : String) :
    (lowerCase text).toList = lowerAfter [] text.toList := by
  simp [lowerCase]

/-- Apart from sigmas, characters are lower-cased one by one. -/
theorem lowerAfter_eq_flatMap {cs : List Char} (h : 'Σ' ∉ cs) (before : List Char) :
    lowerAfter before cs = cs.flatMap lowerForm := by
  induction cs generalizing before with
  | nil => rfl
  | cons c cs ih =>
      simp only [List.mem_cons, not_or] at h
      simp [lowerAfter, Ne.symm h.1, ih h.2]

end BslNav
