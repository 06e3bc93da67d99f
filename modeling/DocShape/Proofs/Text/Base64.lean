import DocShape.Proofs.Text.Name
import DocShape.Text.Base64

/-!
# Bytes in base64

`isBase64` decides by looking at characters.  This file says what it decides:
`base64` writes bytes as text, three bytes as four digits of six bits, and

    isBase64 s ↔ s is what some bytes are written as.

* `base64Char_eq_iff`: the digit of a value and the value of a digit undo each
  other.
* `isBase64_iff`: **the accepted texts are exactly the written ones**.
-/

namespace DocShape.Text

/-! ### Digits -/

/-- The base64 digits, in the order of their values. -/
def base64Alphabet : List Char :=
  "ABCDEFGHIJKLMNOPQRSTUVWXYZabcdefghijklmnopqrstuvwxyz0123456789+/".toList

def base64Char (n : Nat) : Char := base64Alphabet.getD n '='

theorem base64Digit?_base64Char : ∀ n < 64, base64Digit? (base64Char n) = some n := by
  decide +kernel

/-- A base64 digit is an ASCII character. -/
theorem toNat_lt_of_base64Digit? {c : Char} {n : Nat} (h : base64Digit? c = some n) :
    c.toNat < 128 := by
  unfold base64Digit? at h
  simp only [isUpper_iff, isLower_iff, isDigit_iff, Char.le_def, UInt32.le_iff_toNat_le] at h
  change (if 65 ≤ c.toNat ∧ c.toNat ≤ 90 then _ else if 97 ≤ c.toNat ∧ c.toNat ≤ 122 then _ else
    if 48 ≤ c.toNat ∧ c.toNat ≤ 57 then _ else _) = _ at h
  split at h
  · omega
  split at h
  · omega
  split at h
  · omega
  split at h
  · next hc => subst hc; decide
  split at h
  · next hc => subst hc; decide
  · cases h

theorem base64Char_of_base64Digit? {c : Char} {n : Nat} (h : base64Digit? c = some n) :
    n < 64 ∧ base64Char n = c := by
  have table : ∀ k < 128, ∀ m ∈ base64Digit? (Char.ofNat k),
      m < 64 ∧ base64Char m = Char.ofNat k := by
    decide +kernel
  have hc := table c.toNat (toNat_lt_of_base64Digit? h)
  rw [Char.ofNat_toNat] at hc
  exact hc n h

theorem base64Char_ne_pad {n : Nat} (h : n < 64) : base64Char n ≠ '=' := by
  intro he
  have hn := base64Digit?_base64Char n h
  rw [he] at hn
  cases hn

/-! ### Bytes -/

/-- Bytes as text: each three of them as four digits, the last one or two padded with `=`. -/
def base64 : List UInt8 → List Char
  | [] => []
  | [a] => [base64Char (a.toNat / 4), base64Char (a.toNat % 4 * 16), '=', '=']
  | [a, b] =>
    [base64Char (a.toNat / 4), base64Char (a.toNat % 4 * 16 + b.toNat / 16),
      base64Char (b.toNat % 16 * 4), '=']
  | a :: b :: c :: rest =>
    base64Char (a.toNat / 4) :: base64Char (a.toNat % 4 * 16 + b.toNat / 16)
      :: base64Char (b.toNat % 16 * 4 + c.toNat / 64) :: base64Char (c.toNat % 64) :: base64 rest

theorem isBase64Digit_base64Char {n : Nat} (h : n < 64) : isBase64Digit (base64Char n) = true := by
  rw [isBase64Digit, base64Digit?_base64Char n h]
  rfl

theorem isPaddedDigit_base64Char (unit : Nat) {n : Nat} (h : n < 64) (hb : n % unit = 0) :
    isPaddedDigit unit (base64Char n) = true := by
  rw [isPaddedDigit, base64Digit?_base64Char n h]
  exact decide_eq_true hb

/-- A last group with one padding character. -/
theorem isBase64Groups_pad {a b c : Char} (hc : c ≠ '=') :
    isBase64Groups [a, b, c, '='] = (isBase64Digit a && isBase64Digit b && isPaddedDigit 4 c) := by
  rw [isBase64Groups]
  intro he
  exact hc he

/-- A group without padding. -/
theorem isBase64Groups_cons {a b c d : Char} {rest : List Char} (hd : d ≠ '=') :
    isBase64Groups (a :: b :: c :: d :: rest) =
      ([a, b, c, d].all isBase64Digit && isBase64Groups rest) := by
  rw [isBase64Groups]
  · intro _ he
    exact absurd he hd
  · intro he
    exact absurd he hd

theorem isBase64Groups_base64 (bytes : List UInt8) : isBase64Groups (base64 bytes) = true := by
  fun_induction base64 bytes with
  | case1 => rfl
  | case2 a =>
    have ha := a.toNat_lt
    have h₁ := isBase64Digit_base64Char (n := a.toNat / 4) (by omega)
    have h₂ := isPaddedDigit_base64Char 16 (n := a.toNat % 4 * 16) (by omega) (by omega)
    simp only [isBase64Groups, h₁, h₂, Bool.and_self]
  | case3 a b =>
    have ha := a.toNat_lt
    have hb := b.toNat_lt
    have h₁ := isBase64Digit_base64Char (n := a.toNat / 4) (by omega)
    have h₂ := isBase64Digit_base64Char (n := a.toNat % 4 * 16 + b.toNat / 16) (by omega)
    have h₃ := isPaddedDigit_base64Char 4 (n := b.toNat % 16 * 4) (by omega) (by omega)
    have hpad := base64Char_ne_pad (n := b.toNat % 16 * 4) (by omega)
    rw [isBase64Groups_pad hpad, h₁, h₂, h₃]
    rfl
  | case4 a b c rest ih =>
    have ha := a.toNat_lt
    have hb := b.toNat_lt
    have hc := c.toNat_lt
    rw [isBase64Groups_cons (base64Char_ne_pad (by omega)), ih]
    simp only [List.all_cons, List.all_nil, Bool.and_true, Bool.and_eq_true]
    exact ⟨isBase64Digit_base64Char (by omega), isBase64Digit_base64Char (by omega),
      isBase64Digit_base64Char (by omega), isBase64Digit_base64Char (by omega)⟩

/-! ### Reading bytes off digits -/

theorem exists_value_of_isBase64Digit {c : Char} (h : isBase64Digit c = true) :
    ∃ n < 64, base64Char n = c := by
  obtain ⟨n, hn⟩ := Option.isSome_iff_exists.1 h
  exact ⟨n, base64Char_of_base64Digit? hn⟩

theorem exists_value_of_isPaddedDigit {c : Char} {unit : Nat} (h : isPaddedDigit unit c = true) :
    ∃ n < 64, base64Char n = c ∧ n % unit = 0 := by
  rw [isPaddedDigit] at h
  split at h
  · next n hn =>
    obtain ⟨hlt, hc⟩ := base64Char_of_base64Digit? hn
    exact ⟨n, hlt, hc, of_decide_eq_true h⟩
  · exact absurd h (by decide)

theorem toNat_ofNat_lt {n : Nat} (h : n < 256) : (UInt8.ofNat n).toNat = n :=
  UInt8.toNat_ofNat_of_lt h

theorem exists_bytes_of_isBase64Groups (text : List Char) (h : isBase64Groups text = true) :
    ∃ bytes, base64 bytes = text := by
  fun_induction isBase64Groups text with
  | case1 => exact ⟨[], rfl⟩
  | case2 a b =>
    rw [Bool.and_eq_true] at h
    obtain ⟨x, hx, rfl⟩ := exists_value_of_isBase64Digit h.1
    obtain ⟨y, hy, rfl, hy'⟩ := exists_value_of_isPaddedDigit h.2
    refine ⟨[UInt8.ofNat (x * 4 + y / 16)], ?_⟩
    rw [base64, toNat_ofNat_lt (by omega)]
    have h₁ : (x * 4 + y / 16) / 4 = x := by omega
    have h₂ : (x * 4 + y / 16) % 4 * 16 = y := by omega
    rw [h₁, h₂]
  | case3 a b c hc =>
    rw [Bool.and_eq_true, Bool.and_eq_true] at h
    obtain ⟨x, hx, rfl⟩ := exists_value_of_isBase64Digit h.1.1
    obtain ⟨y, hy, rfl⟩ := exists_value_of_isBase64Digit h.1.2
    obtain ⟨z, hz, rfl, hz'⟩ := exists_value_of_isPaddedDigit h.2
    refine ⟨[UInt8.ofNat (x * 4 + y / 16), UInt8.ofNat (y % 16 * 16 + z / 4)], ?_⟩
    rw [base64, toNat_ofNat_lt (by omega), toNat_ofNat_lt (by omega)]
    have h₁ : (x * 4 + y / 16) / 4 = x := by omega
    have h₂ : (x * 4 + y / 16) % 4 * 16 + (y % 16 * 16 + z / 4) / 16 = y := by omega
    have h₃ : (y % 16 * 16 + z / 4) % 16 * 4 = z := by omega
    rw [h₁, h₂, h₃]
  | case4 a b c d rest _ _ ih =>
    simp only [List.all_cons, List.all_nil, Bool.and_true, Bool.and_eq_true] at h
    obtain ⟨⟨ha, hb, hc, hd⟩, hrest⟩ := h
    obtain ⟨bytes, rfl⟩ := ih hrest
    obtain ⟨w, hw, rfl⟩ := exists_value_of_isBase64Digit ha
    obtain ⟨x, hx, rfl⟩ := exists_value_of_isBase64Digit hb
    obtain ⟨y, hy, rfl⟩ := exists_value_of_isBase64Digit hc
    obtain ⟨z, hz, rfl⟩ := exists_value_of_isBase64Digit hd
    refine ⟨UInt8.ofNat (w * 4 + x / 16) :: UInt8.ofNat (x % 16 * 16 + y / 4)
      :: UInt8.ofNat (y % 4 * 64 + z) :: bytes, ?_⟩
    rw [base64, toNat_ofNat_lt (by omega), toNat_ofNat_lt (by omega), toNat_ofNat_lt (by omega)]
    have h₁ : (w * 4 + x / 16) / 4 = w := by omega
    have h₂ : (w * 4 + x / 16) % 4 * 16 + (x % 16 * 16 + y / 4) / 16 = x := by omega
    have h₃ : (x % 16 * 16 + y / 4) % 16 * 4 + (y % 4 * 64 + z) / 64 = y := by omega
    have h₄ : (y % 4 * 64 + z) % 64 = z := by omega
    rw [h₁, h₂, h₃, h₄]
  | case5 => exact absurd h (by decide)

/-- **A text is accepted exactly when some bytes are written as it.** -/
theorem isBase64_iff (s : String) : isBase64 s = true ↔ ∃ bytes, base64 bytes = s.toList := by
  constructor
  · intro h
    exact exists_bytes_of_isBase64Groups s.toList h
  · rintro ⟨bytes, hs⟩
    rw [isBase64, ← hs]
    exact isBase64Groups_base64 bytes

end DocShape.Text
