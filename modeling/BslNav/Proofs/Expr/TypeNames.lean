import BslNav.Expr.Basic

/-!
# BslNav.Proofs.Expr.TypeNames

Types that are named by a string literal.

The name is the value of the literal, whatever quotes the value has and wherever it
has them: reading takes a quote off each end, and off no end alone, before it reads
the quotes in between, two at a time.

* `Quoted.inside_eq_some_iff` — a text is read between its ends only if these are
  two quotes;
* `unquote_of_not_enclosed` — any other text is read whole, and keeps its ends;
* `stringTypeName_exact` — what the name is, for every text of the literal.
-/

namespace BslNav

namespace Quoted

variable {cs inner : List Char}

/-! ## the ends -/

theorem inside_eq_some_iff : inside cs = some inner ↔ cs = '"' :: (inner ++ ['"']) := by
  constructor
  · intro h
    unfold inside at h
    split at h
    · next cs =>
      split at h
      · next hlast =>
        obtain ⟨init, rfl⟩ := List.getLast?_eq_some_iff.mp hlast
        rw [List.dropLast_concat, Option.some.injEq] at h
        rw [h]
      · contradiction
    · contradiction
  · rintro rfl
    exact inside_quoted inner

/-! ## the quotes in between -/

/-- A text begins with what it began with. -/
theorem head?_collapse (cs : List Char) : (collapse cs).head? = cs.head? := by
  unfold collapse
  split <;> rfl

/-- A text ends with what it ended with: the last quote of a run is never lost. -/
theorem getLast?_collapse (cs : List Char) : (collapse cs).getLast? = cs.getLast? := by
  fun_induction collapse cs with
  | case1 cs ih => simp [List.getLast?_cons, ih]
  | case2 c cs _ ih => simp [List.getLast?_cons, ih]
  | case3 => rfl

end Quoted

/-! ## literals -/

section Literals

variable {text : String}

theorem unquote_enclosed (inner : String) :
    unquote ("\"" ++ inner ++ "\"") = String.ofList (Quoted.collapse inner.toList) := by
  have hinside : Quoted.inside ("\"" ++ inner ++ "\"").toList = some inner.toList :=
    Quoted.inside_eq_some_iff.mpr (by simp)
  rw [unquote, hinside, Option.getD_some]

theorem unquote_of_not_enclosed (h : ∀ inner, text ≠ "\"" ++ inner ++ "\"") :
    unquote text = String.ofList (Quoted.collapse text.toList) := by
  have hinside : Quoted.inside text.toList = none := by
    rw [Option.eq_none_iff_forall_ne_some]
    intro inner hinner
    apply h (String.ofList inner)
    apply String.toList_inj.mp
    simpa using Quoted.inside_eq_some_iff.mp hinner
  rw [unquote, hinside, Option.getD_none]

end Literals

/-! ## constructor calls -/

namespace Expr

/-- A constructor call with a string literal as type name. -/
def constructOfString (text : String) (arguments : List Expr) (typeLink link : Option NodeLink) :
    Expr :=
  .construct (.terminal (.literal .string text) typeLink) arguments link

theorem staticTypeName?_constructOfString (text : String) (arguments : List Expr)
    (typeLink link : Option NodeLink) :
    (constructOfString text arguments typeLink link).staticTypeName? = some (unquote text) := by
  simp [constructOfString, staticTypeName?, literal?]

/-- **String literals name types exactly.**  The literal of a value names the type by
this value, whatever else is in the call, so calls with the literals of two values
name the same type only if the values are the same.  What stands between two quotes
at the ends is read without them.  A text that has no such two quotes, among them the
text of one quote alone, loses neither end. -/
theorem stringTypeName_exact (arguments : List Expr) (typeLink link : Option NodeLink) :
    (∀ value, (constructOfString (quote value) arguments typeLink link).staticTypeName? =
      some value) ∧
    (∀ value value' arguments' typeLink' link',
      (constructOfString (quote value) arguments typeLink link).staticTypeName? =
        (constructOfString (quote value') arguments' typeLink' link').staticTypeName? ↔
      value = value') ∧
    (∀ inner,
      (constructOfString ("\"" ++ inner ++ "\"") arguments typeLink link).staticTypeName? =
        some (String.ofList (Quoted.collapse inner.toList))) ∧
    ∀ text, (∀ inner, text ≠ "\"" ++ inner ++ "\"") →
      ∃ name, (constructOfString text arguments typeLink link).staticTypeName? = some name ∧
        name.toList = Quoted.collapse text.toList ∧
        name.toList.head? = text.toList.head? ∧ name.toList.getLast? = text.toList.getLast? := by
  refine ⟨fun value => ?_, fun value value' arguments' typeLink' link' => ?_, fun inner => ?_,
    fun text h => ?_⟩
  · rw [staticTypeName?_constructOfString, unquote_quote]
  · simp only [staticTypeName?_constructOfString, unquote_quote, Option.some.injEq]
  · rw [staticTypeName?_constructOfString, unquote_enclosed]
  · refine ⟨unquote text, staticTypeName?_constructOfString .., ?_⟩
    rw [unquote_of_not_enclosed h, String.toList_ofList]
    exact ⟨rfl, Quoted.head?_collapse _, Quoted.getLast?_collapse _⟩

/-- One quote alone is the name that it looks like. -/
theorem stringTypeName_exact_loneQuote :
    (∀ inner, "\"" ≠ "\"" ++ inner ++ "\"") ∧
    (constructOfString "\"" [] none none).staticTypeName? = some "\"" := by
  have hlone : ∀ inner, "\"" ≠ "\"" ++ inner ++ "\"" := by
    intro inner h
    have hlength := congrArg String.length h
    simp at hlength
  obtain ⟨name, hname, hcollapse, -⟩ := (stringTypeName_exact [] none none).2.2.2 _ hlone
  obtain rfl : name = "\"" := String.toList_inj.mp hcollapse
  exact ⟨hlone, hname⟩

end Expr

end BslNav
