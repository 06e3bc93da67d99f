import DocShape.Number.Double

/-!
# The shortest decimal that reads back

A double is written with the fewest decimal digits that round to it, and of those decimals the
nearest. Everything is computed in **quarter units** (a quarter of the smallest positive double), in
which the value and both ends of the interval that rounds to it are whole numbers.

* `Double.shortest`: the digits and where the point stands.
* `Double.text`: their notation, under a `DecimalStyle`.
-/

namespace DocShape

/-- A positive decimal `0.d₁d₂… * 10 ^ point`, or zero as the one digit `0` before the point. -/
structure Decimal where
  digits : List Char
  point : Int
deriving DecidableEq

/-- What is left open when a double is written in decimal. -/
structure DecimalStyle where
  /-- The leading exponents that are written with a plain decimal point; none if all are. -/
  plain? : Option (Int × Int)
  /-- Whether a whole number keeps the fraction `.0`. -/
  keepsFraction : Bool
  /-- Whether of two shortest decimals at equal distance the larger is taken, and not the even. -/
  tiesUp : Bool

namespace Double

/-! ## Digits -/

def quarters (d : Double) : Nat := 4 * d.magnitude

def quartersPerOne : Nat := 4 * unitsPerOne

/-- The lower end of the interval that rounds to the magnitude. Just above a power of two the gap
below is half of the gap above. -/
def lowEnd (d : Double) : Nat :=
  if d.mantissa = Nat.pow 2 52 ∧ 0 < d.exponent then d.quarters - Nat.pow 2 d.exponent
  else d.quarters - 2 * Nat.pow 2 d.exponent

/-- The upper end of that interval. -/
def highEnd (d : Double) : Nat := d.quarters + 2 * Nat.pow 2 d.exponent

/-- Whether `g * 10 ^ k` rounds to the magnitude; both sides are scaled to whole numbers. An end of
the interval belongs to it exactly when the mantissa is even. -/
def readsBack (d : Double) (g : Nat) (k : Int) : Bool :=
  let point := g * (quartersPerOne * Nat.pow 10 k.toNat)
  let scale := Nat.pow 10 (-k).toNat
  if d.mantissa % 2 = 0 then d.lowEnd * scale ≤ point && point ≤ d.highEnd * scale
  else d.lowEnd * scale < point && point < d.highEnd * scale

/-- The multiple of `10 ^ k` that stands for the magnitude: of its two neighbours on that grid one
that reads back, the nearer if both do. -/
def onGrid? (d : Double) (tiesUp : Bool) (k : Int) : Option Nat :=
  let num := d.quarters * Nat.pow 10 (-k).toNat
  let den := quartersPerOne * Nat.pow 10 k.toNat
  let below := num / den
  let twice := 2 * (num % den)
  match d.readsBack below k, d.readsBack (below + 1) k with
  | true, true =>
    if twice < den then some below
    else if den < twice then some (below + 1)
    else if tiesUp then some (below + 1)
    else some (below + below % 2)
  | true, false => some below
  | false, true => some (below + 1)
  | false, false => none

/-- Shifting by this many decimal places makes every positive double at least one. -/
def decimalShift : Nat := 330

/-- The exponent of the leading decimal digit of a positive magnitude. -/
def leadingExponent (d : Double) : Int :=
  let shifted := d.quarters * Nat.pow 10 decimalShift / quartersPerOne
  ((Nat.toDigits 10 shifted).length : Int) - 1 - decimalShift

/-- The decimal with digits `g` that ends at the place of `10 ^ k`, without trailing zeros. -/
def decimalOf (g : Nat) (k : Int) : Decimal :=
  let digits := Nat.toDigits 10 g
  ⟨(digits.reverse.dropWhile (· = '0')).reverse, digits.length + k⟩

/-- The shortest decimal of the magnitude. Seventeen digits always suffice. -/
def shortest (d : Double) (tiesUp : Bool) : Decimal :=
  if d.mantissa = 0 then ⟨['0'], 1⟩
  else
    let lead := d.leadingExponent
    let found := (List.range 17).findSome? fun (i : Nat) =>
      (d.onGrid? tiesUp (lead - i)).map fun g => decimalOf g (lead - i)
    found.getD ⟨['0'], 1⟩

end Double

/-! ## Notation -/

namespace Decimal

/-- Digits around a plain decimal point, filled up with zeros. -/
def plainText (x : Decimal) (keepsFraction : Bool) : List Char :=
  if x.point ≤ 0 then
    '0' :: '.' :: (List.replicate (-x.point).toNat '0' ++ x.digits)
  else
    let whole := x.point.toNat
    if x.digits.length ≤ whole then
      x.digits ++ List.replicate (whole - x.digits.length) '0'
        ++ (if keepsFraction then ['.', '0'] else [])
    else
      x.digits.take whole ++ '.' :: x.digits.drop whole

/-- One digit before the point and a signed exponent. -/
def exponentText (x : Decimal) : List Char :=
  let fraction := x.digits.drop 1
  let exponent := x.point - 1
  x.digits.take 1 ++ (if fraction.isEmpty then [] else '.' :: fraction)
    ++ 'e' :: (if exponent < 0 then '-' else '+') :: Nat.toDigits 10 exponent.natAbs

/-- Plain where the style says so, else with an exponent. -/
def text (x : Decimal) (style : DecimalStyle) : List Char :=
  match style.plain? with
  | none => x.plainText style.keepsFraction
  | some (lo, hi) =>
    if lo ≤ x.point - 1 ∧ x.point - 1 ≤ hi then x.plainText style.keepsFraction
    else x.exponentText

end Decimal

/-- The shortest text of a double that reads back to it; the sign of a negative zero is kept. -/
def Double.text (d : Double) (style : DecimalStyle) : String :=
  let magnitude := (d.shortest style.tiesUp).text style
  String.ofList (if d.negative then '-' :: magnitude else magnitude)

end DocShape
