import DocShape.Number.Shortest

/-!
# Numbers of documents

A number is an integer or a finite double, as it was written. Two relations hold between numbers:
`Number.agrees`, by value, which is how a literal accepts a value, and `Number.same`, which tells
integers from doubles, which is how two descriptions are compared.
-/

namespace DocShape

/-- A JSON number. Integers keep every digit. -/
inductive Number where
  | integer (n : Int)
  | double (d : Double)
deriving DecidableEq

namespace Number

/-- The number as a double, an integer rounded to the nearest. -/
def toDouble? : Number → Option Double
  | integer n => Double.ofInt? n
  | double d => some d

/-- Two integers agree when they are equal. As soon as one number is a double, both are compared as
doubles, by value: `0.0` agrees with `-0.0`, and `1` with `1.0`. -/
def agrees : Number → Number → Bool
  | integer a, integer b => a == b
  | a, b =>
    match a.toDouble?, b.toDouble? with
    | some x, some y => x.units == y.units
    | _, _ => false

/-- The same number in the same form: an integer is never the same as a double. -/
def same : Number → Number → Bool
  | integer a, integer b => a == b
  | double x, double y => x.units == y.units
  | _, _ => false

/-- Doubles in JSON text keep a fraction digit; from `10 ^ 16` on and below `10 ^ -5` they are
written with an exponent. -/
def jsonStyle : DecimalStyle := ⟨some (-5, 15), true, false⟩

/-- Doubles in declarations never have an exponent, and a whole one has no fraction. -/
def declarationStyle : DecimalStyle := ⟨none, false, true⟩

def jsonText : Number → String
  | integer n => toString n
  | double d => d.text jsonStyle

def declarationText : Number → String
  | integer n => toString n
  | double d => d.text declarationStyle

end Number

end DocShape
