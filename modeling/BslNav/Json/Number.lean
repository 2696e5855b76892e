/-!
# BslNav.Json.Number

Numbers in JSON texts.

A `Numeral` is a number as it is written.  One without fraction and exponent
that fits 64 bits is an integer, signed if negative; every other one, minus
zero included, becomes a double.

The double is reached from the leading digits that fit 64 bits and a power of
ten, by one multiplication or a few divisions, each rounded: it need not be the
double nearest to the numeral.  A numeral beyond the largest double has no
value.
-/

namespace BslNav

/-- A number: an integer of at most 64 bits, or the bits of a double. -/
inductive Number where
  | int (value : Int)
  | real (bits : UInt64)
deriving DecidableEq, Repr

/-- A number as written: digits before the point, digits after it, and the
exponent. -/
structure Numeral where
  negative : Bool
  integer : List Nat
  fraction : Option (List Nat)
  exponent : Option Int
deriving DecidableEq, Repr

namespace Numeral

/-- The value of a decimal digit. -/
def digit? (c : Char) : Option Nat := if c.isDigit then some (c.toNat - '0'.toNat) else none

/-- The digits at the front, and what follows them. -/
def digits : List Char → List Nat × List Char
  | [] => ([], [])
  | c :: cs =>
      match digit? c with
      | some d => (d :: (digits cs).1, (digits cs).2)
      | none => ([], c :: cs)

/-- The number that decimal digits denote. -/
def ofDigits (ds : List Nat) : Nat := ds.foldl (fun n d => 10 * n + d) 0

/-- The point and the digits after it, at least one, if there is a point. -/
def readFraction : List Char → Option (Option (List Nat) × List Char)
  | '.' :: cs =>
      match digits cs with
      | ([], _) => none
      | (ds, rest) => some (some ds, rest)
  | cs => some (none, cs)

/-- The signed digits of an exponent, at least one. -/
def readExponentDigits (cs : List Char) : Option (Int × List Char) :=
  let (negative, cs) : Bool × List Char := match cs with
    | '-' :: cs => (true, cs)
    | '+' :: cs => (false, cs)
    | cs => (false, cs)
  match digits cs with
  | ([], _) => none
  | (ds, rest) => some (if negative then -(ofDigits ds : Int) else ofDigits ds, rest)

/-- The exponent, if there is one. -/
def readExponent : List Char → Option (Option Int × List Char)
  | 'e' :: cs | 'E' :: cs => (readExponentDigits cs).map fun (n, rest) => (some n, rest)
  | cs => some (none, cs)

/-- Read a numeral.  Zero is the only number that begins with a zero. -/
def ofChars? (cs : List Char) : Option Numeral :=
  let (negative, cs) : Bool × List Char := match cs with
    | '-' :: cs => (true, cs)
    | cs => (false, cs)
  match digits cs with
  | ([], _) => none
  | (0 :: _ :: _, _) => none
  | (integer, cs) => do
      let (fraction, cs) ← readFraction cs
      let (exponent, cs) ← readExponent cs
      if cs.isEmpty then some ⟨negative, integer, fraction, exponent⟩ else none

/-! ## doubles -/

/-- Two to the 64th: what is less fits 64 bits. -/
def wordSize : Nat := 0x10000000000000000

/-- Two to the 63rd: no negative integer of 64 bits lies further below zero. -/
def signedReach : Nat := 0x8000000000000000

/-- The digits that fit 64 bits, read on from `n`, and how many are left. -/
def accumulate (n : Nat) : List Nat → Nat × Nat
  | [] => (n, 0)
  | d :: ds => if 10 * n + d < wordSize then accumulate (10 * n + d) ds else (n, ds.length + 1)

/-- Ten to a power of at most 308. -/
def powerOfTen (n : Nat) : Float := Float.ofScientific 1 false n

/-- Divide by ten to the power `n`, by steps of at most 308. -/
def shrink (x : Float) (n : Nat) : Float :=
  if n ≤ 308 then x / powerOfTen n
  else if x == 0 then x
  else shrink (x / powerOfTen 308) (n - 308)
termination_by n

/-- Multiply by a power of ten, unless the product has no finite value. -/
def scale (x : Float) (exponent : Int) : Option Float :=
  match exponent with
  | .ofNat n =>
      if n ≤ 308 then
        let y := x * powerOfTen n
        if y.isInf then none else some y
      else if x == 0 then some x
      else none
  | .negSucc n => some (shrink x (n + 1))

/-- The double of a numeral.  Digits before the point that do not fit count as
zeros, and so do those after it. -/
def toDouble? (m : Numeral) : Option UInt64 :=
  let (whole, dropped) := accumulate 0 m.integer
  let fraction := m.fraction.getD []
  let (significand, unread) := accumulate whole fraction
  let exponent := (dropped : Int) - (fraction.length - unread : Nat) + m.exponent.getD 0
  (scale (UInt64.ofNat significand).toFloat exponent).map fun x =>
    (if m.negative then -x else x).toBits

/-- The value of a numeral, unless it is out of range. -/
def value? (m : Numeral) : Option Number :=
  let n := ofDigits m.integer
  if m.fraction.isNone && m.exponent.isNone then
    if m.negative then
      if 0 < n && n ≤ signedReach then some (.int (-Int.ofNat n)) else m.toDouble?.map .real
    else if n < wordSize then some (.int (.ofNat n)) else m.toDouble?.map .real
  else m.toDouble?.map .real

end Numeral

end BslNav
