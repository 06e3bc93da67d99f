/-!
# JSON as it is written

The first half of reading JSON: the grammar alone. A `Written` value keeps the digits of its
numbers, the code units of its escapes and every repeated member, so that a reader may leave parts
of a text unread. What a text means is decided in a second step, `DocShape.Json.Reader`.

* `Written.ofText?`: **the tree of a text**, if the text is one JSON value between blanks.
-/

namespace DocShape

/-- One character of a written string: itself, or a UTF-16 unit given by its number. -/
inductive Piece where
  | char (c : Char)
  | unit (code : Nat)

/-- A written number. `fraction` is empty when there is no point. -/
structure Numeral where
  negative : Bool
  whole : List Char
  fraction : List Char
  exponent? : Option Int

inductive Written where
  | null
  | bool (b : Bool)
  | number (n : Numeral)
  | string (pieces : List Piece)
  | array (items : List Written)
  | object (members : List (List Piece × Written))

/-! ## Characters -/

def isJsonBlank (c : Char) : Bool := c = ' ' || c = '\t' || c = '\n' || c = '\r'

def skipBlanks (cs : List Char) : List Char := cs.dropWhile isJsonBlank

def ofDecimalDigits (digits : List Char) : Nat :=
  digits.foldl (fun n c => 10 * n + (c.toNat - '0'.toNat)) 0

def hexDigit? (c : Char) : Option Nat :=
  if c.isDigit then some (c.toNat - '0'.toNat)
  else if 'a' ≤ c ∧ c ≤ 'f' then some (c.toNat - 'a'.toNat + 10)
  else if 'A' ≤ c ∧ c ≤ 'F' then some (c.toNat - 'A'.toNat + 10)
  else none

/-- The character that a one-letter escape stands for. -/
def escaped? : Char → Option Char
  | '"' => some '"'
  | '\\' => some '\\'
  | '/' => some '/'
  | 'b' => some '\x08'
  | 'f' => some '\x0c'
  | 'n' => some '\n'
  | 'r' => some '\r'
  | 't' => some '\t'
  | _ => none

/-- The number of a four-digit escape. -/
def codeUnit? (a b c d : Char) : Option Nat := do
  let high := (← hexDigit? a) * 16 + (← hexDigit? b)
  let low := (← hexDigit? c) * 16 + (← hexDigit? d)
  return high * 256 + low

/-! ## Scalars -/

/-- The pieces of a string up to its closing quote, and the text after it. Control characters and
unknown escapes have no place in a string. -/
def scanString? (done : List Piece) : List Char → Option (List Piece × List Char)
  | [] => none
  | '"' :: rest => some (done.reverse, rest)
  | '\\' :: 'u' :: a :: b :: c :: d :: rest =>
    match codeUnit? a b c d with
    | some code => scanString? (.unit code :: done) rest
    | none => none
  | '\\' :: c :: rest =>
    match escaped? c with
    | some e => scanString? (.char e :: done) rest
    | none => none
  | c :: rest =>
    if c < ' ' ∨ c = '\\' then none else scanString? (.char c :: done) rest

namespace Numeral

/-- The fraction after the whole part: at least one digit after a point. -/
def scanFraction? : List Char → Option (List Char × List Char)
  | '.' :: rest =>
    let (digits, rest) := rest.span Char.isDigit
    if digits.isEmpty then none else some (digits, rest)
  | rest => some ([], rest)

def scanExponentDigits? (negative : Bool) (cs : List Char) : Option (Option Int × List Char) :=
  let (digits, rest) := cs.span Char.isDigit
  let magnitude : Int := ofDecimalDigits digits
  if digits.isEmpty then none else some (some (if negative then -magnitude else magnitude), rest)

/-- The exponent at the end: a sign, if any, and at least one digit. -/
def scanExponent? : List Char → Option (Option Int × List Char)
  | c :: rest =>
    if c = 'e' ∨ c = 'E' then
      match rest with
      | '-' :: rest => scanExponentDigits? true rest
      | '+' :: rest => scanExponentDigits? false rest
      | rest => scanExponentDigits? false rest
    else
      some (none, c :: rest)
  | [] => some (none, [])

/-- A number at the start of a text. A whole part of several digits has no leading zero. -/
def scan? (cs : List Char) : Option (Numeral × List Char) := do
  let (negative, cs) := match cs with
    | '-' :: rest => (true, rest)
    | cs => (false, cs)
  let (whole, cs) := cs.span Char.isDigit
  if whole.isEmpty ∨ (whole.head? = some '0' ∧ 1 < whole.length) then
    none
  else
    let (fraction, cs) ← scanFraction? cs
    let (exponent?, cs) ← scanExponent? cs
    return (⟨negative, whole, fraction, exponent?⟩, cs)

end Numeral

/-! ## Values -/

namespace Written

mutual

/-- A value at the start of a text, and the text after it. The first argument bounds the number of
nested calls. -/
def scan? : Nat → List Char → Option (Written × List Char)
  | 0, _ => none
  | room + 1, cs =>
    match skipBlanks cs with
    | 'n' :: 'u' :: 'l' :: 'l' :: rest => some (.null, rest)
    | 't' :: 'r' :: 'u' :: 'e' :: rest => some (.bool true, rest)
    | 'f' :: 'a' :: 'l' :: 's' :: 'e' :: rest => some (.bool false, rest)
    | '"' :: rest => (scanString? [] rest).map fun (pieces, rest) => (.string pieces, rest)
    | '[' :: rest =>
      match skipBlanks rest with
      | ']' :: rest => some (.array [], rest)
      | rest => (scanItems? room [] rest).map fun (items, rest) => (.array items, rest)
    | '{' :: rest =>
      match skipBlanks rest with
      | '}' :: rest => some (.object [], rest)
      | rest => (scanMembers? room [] rest).map fun (members, rest) => (.object members, rest)
    | cs => (Numeral.scan? cs).map fun (n, rest) => (.number n, rest)

/-- The elements of an array up to its closing bracket. -/
def scanItems? : Nat → List Written → List Char → Option (List Written × List Char)
  | 0, _, _ => none
  | room + 1, done, cs =>
    match scan? room cs with
    | none => none
    | some (item, rest) =>
      match skipBlanks rest with
      | ',' :: rest => scanItems? room (item :: done) rest
      | ']' :: rest => some ((item :: done).reverse, rest)
      | _ => none

/-- The members of an object up to its closing brace. -/
def scanMembers? : Nat → List (List Piece × Written) → List Char →
    Option (List (List Piece × Written) × List Char)
  | 0, _, _ => none
  | room + 1, done, cs =>
    match skipBlanks cs with
    | '"' :: rest =>
      match scanString? [] rest with
      | none => none
      | some (name, rest) =>
        match skipBlanks rest with
        | ':' :: rest =>
          match scan? room rest with
          | none => none
          | some (value, rest) =>
            match skipBlanks rest with
            | ',' :: rest => scanMembers? room ((name, value) :: done) rest
            | '}' :: rest => some (((name, value) :: done).reverse, rest)
            | _ => none
        | _ => none
    | _ => none

end

/-- The tree of a text that is one JSON value between blanks. Every two nested calls read at least
one character, which bounds their number. -/
def ofText? (text : String) : Option Written :=
  let cs := text.toList
  match scan? (2 * cs.length + 2) cs with
  | some (value, rest) => if (skipBlanks rest).isEmpty then some value else none
  | none => none

end Written

end DocShape
