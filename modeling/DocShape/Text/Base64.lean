/-!
# Base64

Which texts are binary data in base64: groups of four digits, the last of them padded with `=` where
one or two bytes are left over. The padding is required, and bits that carry no data must be zero,
so each sequence of bytes has one text.
-/

namespace DocShape.Text

def base64Digit? (c : Char) : Option Nat :=
  if c.isUpper then some (c.toNat - 'A'.toNat)
  else if c.isLower then some (c.toNat - 'a'.toNat + 26)
  else if c.isDigit then some (c.toNat - '0'.toNat + 52)
  else if c = '+' then some 62
  else if c = '/' then some 63
  else none

def isBase64Digit (c : Char) : Bool := (base64Digit? c).isSome

/-- Whether a character is a base64 digit that carries no data below `unit`. -/
def isPaddedDigit (unit : Nat) (c : Char) : Bool :=
  match base64Digit? c with
  | some n => n % unit = 0
  | none => false

/-- Whether characters are whole groups, the last one padded if need be. -/
def isBase64Groups : List Char → Bool
  | [] => true
  | [a, b, '=', '='] => isBase64Digit a && isPaddedDigit 16 b
  | [a, b, c, '='] => isBase64Digit a && isBase64Digit b && isPaddedDigit 4 c
  | a :: b :: c :: d :: rest => [a, b, c, d].all isBase64Digit && isBase64Groups rest
  | _ => false

/-- Whether a text is binary data in base64. -/
def isBase64 (s : String) : Bool := isBase64Groups s.toList

end DocShape.Text
