import DocShape.Json.Basic
import DocShape.Json.Written

/-!
# The meaning of JSON text

The second half of reading JSON: from the written tree to the value. Here a number has to be in
range, an escape has to name a character, and nesting is bounded.

* `Json.ofText?`: **the value of a text**.
-/

namespace DocShape

/-! ## Strings -/

/-- A string while it is put together: its characters in reverse, and a leading surrogate that waits
for the trailing one. -/
structure Unescaping where
  done : List Char
  pending? : Option Nat

def isLeadingSurrogate (code : Nat) : Bool := 0xD800 ≤ code && code < 0xDC00

def isTrailingSurrogate (code : Nat) : Bool := 0xDC00 ≤ code && code < 0xE000

/-- Adds one piece. A surrogate outside a pair is none. -/
def Unescaping.add? (state : Unescaping) (piece : Piece) : Option Unescaping :=
  match state.pending?, piece with
  | none, .char c => some ⟨c :: state.done, none⟩
  | none, .unit code =>
    if isLeadingSurrogate code then some ⟨state.done, some code⟩
    else if isTrailingSurrogate code then none
    else some ⟨Char.ofNat code :: state.done, none⟩
  | some lead, .unit code =>
    if isTrailingSurrogate code then
      let code := 0x10000 + (lead - 0xD800) * 0x400 + (code - 0xDC00)
      some ⟨Char.ofNat code :: state.done, none⟩
    else none
  | some _, .char _ => none

/-- The text of the pieces of a string. -/
def Piece.text? (pieces : List Piece) : Option String := do
  let state ← pieces.foldlM Unescaping.add? ⟨[], none⟩
  if state.pending?.isSome then none else return String.ofList state.done.reverse

/-! ## Numbers -/

namespace Numeral

/-- Gathers digits behind `significand` as long as it stays below `2 ^ 64`; also returns how many
digits were taken. -/
def gather (significand taken : Nat) : List Char → Nat × Nat
  | [] => (significand, taken)
  | c :: rest =>
    let next := 10 * significand + (c.toNat - '0'.toNat)
    if next < Nat.pow 2 64 then gather next (taken + 1) rest else (significand, taken)

/-- The double of a number: a significand of up to 64 bits, each whole digit that did not fit
raising the exponent by one, each fraction digit that did lowering it by one. -/
def toDouble? (n : Numeral) : Option Double :=
  let (whole, wholeTaken) := gather 0 0 n.whole
  let (significand, fractionTaken) := gather whole 0 n.fraction
  let exponent : Int := n.exponent?.getD 0 + (n.whole.length - wholeTaken : Nat) - fractionTaken
  (Double.ofScientific? significand exponent).map (Double.withSign n.negative)

/-- The number that is meant. Without fraction and exponent it is an integer if it fits 64 bits,
signed or unsigned; a negative zero is a double, as there is no such integer. -/
def toNumber? (n : Numeral) : Option Number :=
  let magnitude := ofDecimalDigits n.whole
  let isWhole := n.fraction.isEmpty && n.exponent?.isNone
  if isWhole && !n.negative && magnitude < Nat.pow 2 64 then
    some (.integer magnitude)
  else if isWhole && n.negative && 0 < magnitude && magnitude ≤ Nat.pow 2 63 then
    some (.integer (-magnitude))
  else
    n.toDouble?.map .double

end Numeral

/-! ## Values -/

namespace Written

mutual

/-- The value of a tree in which at most `room` arrays and objects are nested. Of a repeated member
the last value counts, at the first place. -/
def toJson? (room : Nat) : Written → Option Json
  | .null => some .null
  | .bool b => some (.bool b)
  | .number n => n.toNumber?.map .number
  | .string pieces => (Piece.text? pieces).map .string
  | .array items =>
    if room = 0 then none else (itemsToJson? (room - 1) [] items).map .array
  | .object members =>
    if room = 0 then none else (membersToJson? (room - 1) [] members).map .object

/-- The values of the elements of an array, after those that are `done`. -/
def itemsToJson? (room : Nat) (done : List Json) : List Written → Option (List Json)
  | [] => some done.reverse
  | item :: rest =>
    match item.toJson? room with
    | some value => itemsToJson? room (value :: done) rest
    | none => none

/-- The members of an object, added to those that are `done`. -/
def membersToJson? (room : Nat) (done : Members) : List (List Piece × Written) → Option Members
  | [] => some done
  | (name, value) :: rest =>
    match Piece.text? name, value.toJson? room with
    | some name, some value => membersToJson? room (done.put name value) rest
    | _, _ => none

end

end Written

namespace Json

/-- How deep arrays and objects may be nested in a text. -/
def maxNesting : Nat := 127

def ofText? (text : String) : Option Json :=
  (Written.ofText? text).bind (·.toJson? maxNesting)

end Json

end DocShape
