/-!
# Finite doubles

A finite IEEE 754 binary64 number as sign, mantissa and exponent, with exact arithmetic on natural
numbers in place of machine arithmetic. A **unit** is the smallest positive double, `2 ^ -1074`:
every finite double is a whole number of units, and two doubles are the same number exactly when
they have the same units.

* `Double.units`: the number of units, with its sign.
* `Double.nearest?`: **the double nearest to a quotient**, a tie going to the even mantissa, and
  none if the quotient lies beyond the largest finite double.
* `Double.ofScientific?`: a decimal significand scaled by a power of ten.
-/

namespace DocShape

/-- A finite double, `± mantissa * 2 ^ exponent` units. The mantissa has 53 bits, fewer only at the
smallest exponent, so each double has one form (zero has two, by its sign). -/
structure Double where
  negative : Bool
  mantissa : Nat
  exponent : Nat
  canonical : mantissa < Nat.pow 2 53 ∧ exponent ≤ 2045 ∧ (Nat.pow 2 52 ≤ mantissa ∨ exponent = 0)
deriving DecidableEq

namespace Double

/-- How many units make one. -/
def unitsPerOne : Nat := Nat.pow 2 1074

def magnitude (d : Double) : Nat := d.mantissa * Nat.pow 2 d.exponent

/-- The signed number of units. It is the same for both zeros. -/
def units (d : Double) : Int := if d.negative then -(d.magnitude : Int) else d.magnitude

/-- The double of that form, if it is one. -/
def ofParts? (negative : Bool) (mantissa exponent : Nat) : Option Double :=
  if h : mantissa < Nat.pow 2 53 ∧ exponent ≤ 2045 ∧ (Nat.pow 2 52 ≤ mantissa ∨ exponent = 0) then
    some ⟨negative, mantissa, exponent, h⟩
  else
    none

def zero (negative : Bool) : Double := ⟨negative, 0, 0, by decide⟩

def withSign (negative : Bool) (d : Double) : Double := { d with negative }

/-! ## Rounding -/

/-- The whole number nearest to `num / den`, a tie going to the even one. -/
def roundHalfEven (num den : Nat) : Nat :=
  let quotient := num / den
  let twice := 2 * (num % den)
  if twice < den then quotient
  else if den < twice then quotient + 1
  else quotient + quotient % 2

/-- The double nearest to `num / den`, a tie going to the even mantissa; none if it would be
infinite. The exponent is the least at which the quotient has at most 53 bits before rounding; a
mantissa that rounds up to `2 ^ 53` is written with the next exponent. -/
def nearest? (negative : Bool) (num den : Nat) : Option Double :=
  let exponent := Nat.log2 (num * unitsPerOne / den) - 52
  let mantissa := roundHalfEven (num * unitsPerOne) (den * Nat.pow 2 exponent)
  if mantissa = Nat.pow 2 53 then ofParts? negative (Nat.pow 2 52) (exponent + 1)
  else ofParts? negative mantissa exponent

def ofNat? (n : Nat) : Option Double := nearest? false n 1

def ofInt? (n : Int) : Option Double := nearest? (decide (n < 0)) n.natAbs 1

def mul? (a b : Double) : Option Double :=
  nearest? (a.negative != b.negative) (a.magnitude * b.magnitude) (unitsPerOne * unitsPerOne)

/-- The rounded quotient, for a divisor other than zero. -/
def div? (a b : Double) : Option Double :=
  nearest? (a.negative != b.negative) a.magnitude b.magnitude

/-! ## Decimal scaling -/

def tenTo? (k : Nat) : Option Double := ofNat? (Nat.pow 10 k)

/-- The largest power of ten below the largest finite double. -/
def maxTenPower : Nat := 308

/-- A significand of at most 64 bits times `10 ^ exponent`: the significand is rounded first and
then multiplied or divided by one rounded power of ten. Below `10 ^ -308` there are two divisions,
and two divisions by `10 ^ 308` leave zero of every such significand. None if the result would be
infinite. -/
def ofScientific? (significand : Nat) (exponent : Int) : Option Double := do
  let whole ← ofNat? significand
  match exponent with
  | .ofNat k =>
    if k ≤ maxTenPower then mul? whole (← tenTo? k)
    else if significand = 0 then some (zero false)
    else none
  | .negSucc j =>
    let k := j + 1
    if k ≤ maxTenPower then
      div? whole (← tenTo? k)
    else
      let scaled ← div? whole (← tenTo? maxTenPower)
      div? scaled (← tenTo? (min (k - maxTenPower) maxTenPower))

end Double

end DocShape
