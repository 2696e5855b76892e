/-!
# BslNav.Text.Quoted

String literals: a quote at each end, and every quote inside written twice.

`unquote` reads the text of a literal.  A text that lacks either end quote is
left whole, and doubled quotes become single ones in any case.
-/

namespace BslNav

namespace Quoted

/-- Write every quote twice. -/
def double : List Char → List Char
  | [] => []
  | c :: cs => if c = '"' then '"' :: '"' :: double cs else c :: double cs

/-- Write every doubled quote once, from left to right. -/
def collapse : List Char → List Char
  | '"' :: '"' :: cs => '"' :: collapse cs
  | c :: cs => c :: collapse cs
  | [] => []

/-- What stands between a quote at the start and another at the end. -/
def inside : List Char → Option (List Char)
  | '"' :: cs => if cs.getLast? = some '"' then some cs.dropLast else none
  | _ => none

theorem inside_quoted (cs : List Char) : inside ('"' :: (cs ++ ['"'])) = some cs := by
  simp [inside]

/-- A single quote is no pair of end quotes. -/
theorem inside_lone_quote : inside ['"'] = none := rfl

theorem collapse_double (cs : List Char) : collapse (double cs) = cs := by
  induction cs with
  | nil => rfl
  | cons c cs ih =>
      by_cases h : c = '"'
      · simp [double, h, collapse, ih]
      · rw [double, if_neg h, collapse, ih]
        simp [h]

end Quoted

/-- The literal that stands for a text. -/
def quote (text : String) : String :=
  String.ofList ('"' :: (Quoted.double text.toList ++ ['"']))

/-- The text that a literal stands for. -/
def unquote (literal : String) : String :=
  String.ofList (Quoted.collapse ((Quoted.inside literal.toList).getD literal.toList))

@[simp] theorem unquote_quote (text : String) : unquote (quote text) = text := by
  simp [unquote, quote, Quoted.inside_quoted, Quoted.collapse_double]

end BslNav
