import DocShape.Proofs.Number.Rounding
import DocShape.Json.Reader
import DocShape.Shape.Basic
import Mathlib.Algebra.Order.Field.Rat
import Mathlib.Algebra.Order.Field.Basic
import Mathlib.Data.Rat.Cast.Order

/-!
# Numbers that agree

A number stands for an exact rational.  Two integers agree exactly when they are the same
and two doubles exactly when they have the same value, but an integer is rounded before it
is compared with a double: it agrees with the one double that is nearest to it.  Up to
`2 ^ 53` that double is the integer itself; beyond, an integer that is no double agrees
with a number of another value.

* `Number.value`: the rational that a number stands for.
* `Double.IsNearest`: **the nearest double, a tie going to the even mantissa**.
* `Number.fits64_of_toNumber?_eq`: numbers of texts have at most 64 bits.
* `Number.agrees_integer_iff`, `Number.agrees_double_iff`: an integer agrees with the nearest double.
* `Number.accepts_iff_value_eq_iff`: **numbers are matched by value unless one is the
  rounding of the other**.
* `Number.accepts_rounded_integer`: a match of two numbers that are not the same.
* `Number.accepts_iff_value_eq`: integers up to `2 ^ 53` and doubles are matched by value.
-/

namespace DocShape

namespace Double

/-- The rational that a double stands for. -/
def value (d : Double) : ℚ := d.units / unitsPerOne

/-- **The nearest double** to a rational: no other is nearer, and of two values at the same distance
it has the one with the even mantissa. -/
structure IsNearest (d : Double) (q : ℚ) : Prop where
  nearest : ∀ e : Double, |d.value - q| ≤ |e.value - q|
  even : ∀ e : Double, |e.value - q| = |d.value - q| → e.value ≠ d.value → d.mantissa % 2 = 0

/-! ### Values and distances -/

theorem unitsPerOne_pos : (0 : ℚ) < unitsPerOne := by
  have hpos : 0 < unitsPerOne := by decide +kernel
  exact_mod_cast hpos

theorem value_eq_iff {d e : Double} : d.value = e.value ↔ d.units = e.units := by
  rw [value, value, div_left_inj' unitsPerOne_pos.ne', Int.cast_inj]

theorem value_eq_intCast_iff {d : Double} {n : Int} :
    d.value = n ↔ d.units = n * unitsPerOne := by
  rw [value, div_eq_iff unitsPerOne_pos.ne']
  exact_mod_cast Iff.rfl

theorem abs_value_sub (d : Double) (n : Int) : |d.value - n| = d.distance n / unitsPerOne := by
  have hsub : d.value - n = ((d.units - n * unitsPerOne : Int) : ℚ) / unitsPerOne := by
    rw [value, eq_div_iff unitsPerOne_pos.ne', sub_mul, div_mul_cancel₀ _ unitsPerOne_pos.ne']
    push_cast
    ring
  rw [hsub, abs_div, abs_of_pos unitsPerOne_pos, distance, Nat.cast_natAbs, Int.cast_abs]

theorem abs_value_sub_le_iff {d e : Double} {n : Int} :
    |d.value - n| ≤ |e.value - n| ↔ d.distance n ≤ e.distance n := by
  rw [abs_value_sub, abs_value_sub, div_le_div_iff_of_pos_right unitsPerOne_pos, Nat.cast_le]

theorem abs_value_sub_eq_iff {d e : Double} {n : Int} :
    |d.value - n| = |e.value - n| ↔ d.distance n = e.distance n := by
  rw [abs_value_sub, abs_value_sub, div_left_inj' unitsPerOne_pos.ne', Nat.cast_inj]

/-! ### The nearest double -/

theorem mantissa_le_of_magnitude_eq {d e : Double} (h : d.magnitude = e.magnitude)
    (hexponent : d.exponent ≤ e.exponent) : d.mantissa = e.mantissa := by
  obtain ⟨j, hj⟩ := Nat.exists_eq_add_of_le hexponent
  have hmantissa : d.mantissa = e.mantissa * 2 ^ j := by
    have hmagnitudes : d.mantissa * 2 ^ d.exponent = e.mantissa * 2 ^ e.exponent := h
    rw [hj, pow_add, mul_comm (2 ^ d.exponent), ← mul_assoc] at hmagnitudes
    exact Nat.eq_of_mul_eq_mul_right (Nat.two_pow_pos _) hmagnitudes
  cases j with
  | zero => rw [hmantissa, pow_zero, mul_one]
  | succ j =>
    -- With a larger exponent the mantissa has all its bits, so the other would have too many.
    have hfull : 2 ^ 52 ≤ e.mantissa := e.canonical.2.2.resolve_right (by omega)
    have hbits : d.mantissa < 2 ^ 53 := d.canonical.1
    have hpow : 2 ^ 1 ≤ 2 ^ (j + 1) := Nat.pow_le_pow_right (by decide) (by omega)
    have hproduct : 2 ^ 52 * 2 ^ 1 ≤ e.mantissa * 2 ^ (j + 1) := Nat.mul_le_mul hfull hpow
    omega

/-- Doubles of the same value have the same mantissa. -/
theorem mantissa_eq_of_value_eq {d e : Double} (h : d.value = e.value) :
    d.mantissa = e.mantissa := by
  have hmagnitude : d.magnitude = e.magnitude := by
    rw [value_eq_iff, units, units] at h
    split at h <;> split at h <;> omega
  rcases Nat.le_total d.exponent e.exponent with hle | hle
  · exact mantissa_le_of_magnitude_eq hmagnitude hle
  · exact (mantissa_le_of_magnitude_eq hmagnitude.symm hle).symm

/-- A converted integer is the nearest double. -/
theorem isNearest_of_ofInt?_eq {n : Int} {x : Double} (hx : ofInt? n = some x) :
    x.IsNearest n where
  nearest e := by
    by_cases hvalue : e.value = x.value
    · rw [hvalue]
    · rw [abs_value_sub_le_iff]
      rcases distance_lt_or_tie hx (mt value_eq_iff.2 hvalue) with hlt | ⟨heq, -, -⟩
      · exact Nat.le_of_lt hlt
      · exact Nat.le_of_eq heq
  even e htie hvalue := by
    rw [abs_value_sub_eq_iff] at htie
    rcases distance_lt_or_tie hx (mt value_eq_iff.2 hvalue) with hlt | ⟨-, heven, -⟩
    · omega
    · exact heven

/-- Only one value is nearest to an integer, that of the converted integer. -/
theorem isNearest_iff {n : Int} {x d : Double} (hx : ofInt? n = some x) :
    d.IsNearest n ↔ x.value = d.value := by
  have hnearest := isNearest_of_ofInt?_eq hx
  constructor
  · intro hd
    by_contra hvalue
    rcases distance_lt_or_tie hx (mt value_eq_iff.2 (Ne.symm hvalue)) with hlt | ⟨heq, -, hodd⟩
    · have hle := abs_value_sub_le_iff.1 (hd.nearest x)
      omega
    · have heven := hd.even x (abs_value_sub_eq_iff.2 heq) hvalue
      omega
  · intro hvalue
    refine ⟨?_, ?_⟩
    · rw [← hvalue]
      exact hnearest.nearest
    · rw [← hvalue, ← mantissa_eq_of_value_eq hvalue]
      exact hnearest.even

/-- An integer up to `2 ^ 53` is itself a double, so no other is nearest. -/
theorem value_eq_of_isNearest {n : Int} (hn : n.natAbs ≤ 2 ^ 53) {d : Double}
    (hd : d.IsNearest n) : d.value = n := by
  obtain ⟨x, hx⟩ := exists_ofInt?_eq (Nat.le_trans hn (by decide))
  have hzero := distance_eq_zero_of_le hx hn
  rw [← (isNearest_iff hx).1 hd, value_eq_intCast_iff]
  rw [distance] at hzero
  omega

/-- A double is nearest to its own value. -/
theorem isNearest_value (d : Double) : d.IsNearest d.value where
  nearest e := by
    rw [sub_self, abs_zero]
    exact abs_nonneg _
  even e htie hvalue := by
    rw [sub_self, abs_zero, abs_eq_zero, sub_eq_zero] at htie
    exact absurd htie hvalue

end Double

namespace Number

/-- The rational that a number stands for. -/
def value : Number → ℚ
  | integer n => n
  | double d => d.value

/-- An integer fits 64 bits, with a sign or without; a double always fits. -/
def Fits64 : Number → Prop
  | integer n => -2 ^ 63 ≤ n ∧ n < 2 ^ 64
  | double _ => True

/-- An integer rounds to a double of another value: the nearest one. -/
def RoundsTo : Number → Number → Prop
  | integer n, double d => d.value ≠ n ∧ d.IsNearest n
  | _, _ => False

/-- The numbers of JSON texts have at most 64 bits. -/
theorem fits64_of_toNumber?_eq {numeral : Numeral} {a : Number}
    (h : numeral.toNumber? = some a) : a.Fits64 := by
  have hbits64 : Nat.pow 2 64 = 2 ^ 64 := rfl
  have hbits63 : Nat.pow 2 63 = 2 ^ 63 := rfl
  unfold Numeral.toNumber? at h
  dsimp only at h
  split at h
  · next hfits =>
    cases h
    rw [Bool.and_eq_true, decide_eq_true_iff] at hfits
    rw [Fits64]
    omega
  · split at h
    · next hfits =>
      cases h
      rw [Bool.and_eq_true, decide_eq_true_iff] at hfits
      rw [Fits64]
      omega
    · obtain ⟨d, -, rfl⟩ := Option.map_eq_some_iff.1 h
      exact trivial

theorem exists_ofInt?_eq_of_fits64 {n : Int} (h : (integer n).Fits64) :
    ∃ x, Double.ofInt? n = some x := by
  rw [Fits64] at h
  exact Double.exists_ofInt?_eq (by omega)

theorem agrees_integer_integer {m n : Int} :
    (integer m).agrees (integer n) = true ↔ (integer m).value = (integer n).value := by
  rw [agrees, value, value, beq_iff_eq, Int.cast_inj]

theorem agrees_double_double {d e : Double} :
    (double d).agrees (double e) = true ↔ (double d).value = (double e).value := by
  rw [value, value, Double.value_eq_iff]
  exact beq_iff_eq

/-- An integer agrees with the nearest double and with no other. -/
theorem agrees_integer_iff {n : Int} (h : (integer n).Fits64) {d : Double} :
    (integer n).agrees (double d) = true ↔ d.IsNearest n := by
  obtain ⟨x, hx⟩ := exists_ofInt?_eq_of_fits64 h
  rw [Double.isNearest_iff hx, Double.value_eq_iff, agrees, toDouble?, toDouble?, hx]
  · exact beq_iff_eq
  · intro _ _ _ he
    cases he

theorem agrees_double_iff {n : Int} (h : (integer n).Fits64) {d : Double} :
    (double d).agrees (integer n) = true ↔ d.IsNearest n := by
  obtain ⟨x, hx⟩ := exists_ofInt?_eq_of_fits64 h
  rw [Double.isNearest_iff hx, Double.value_eq_iff, agrees, toDouble?, toDouble?, hx,
    eq_comm (a := x.units)]
  · exact beq_iff_eq
  · intro _ _ he
    cases he

/-- The nearest double has the value of the integer, unless the integer rounds to it. -/
theorem isNearest_iff_value_eq_iff {n : Int} {d : Double} :
    (d.IsNearest n ↔ (integer n).value = (double d).value) ↔ ¬ (integer n).RoundsTo (double d) := by
  have hvalue : d.value = n → d.IsNearest n := fun h => h ▸ Double.isNearest_value d
  rw [value, value, RoundsTo, eq_comm (a := (n : ℚ))]
  tauto

/-- Numbers agree by value, except where one of the two is an integer that is no double and the
other the nearest double. -/
theorem agrees_iff_value_eq_iff {a b : Number} (ha : a.Fits64) (hb : b.Fits64) :
    (a.agrees b = true ↔ a.value = b.value) ↔ ¬ (a.RoundsTo b ∨ b.RoundsTo a) := by
  cases a with
  | integer m =>
    cases b with
    | integer n => exact iff_of_true agrees_integer_integer (by simp [RoundsTo])
    | double d =>
      have hother : ¬ (double d).RoundsTo (integer m) := id
      rw [agrees_integer_iff ha, isNearest_iff_value_eq_iff, or_iff_left hother]
  | double d =>
    cases b with
    | integer n =>
      have hother : ¬ (double d).RoundsTo (integer n) := id
      rw [agrees_double_iff hb, eq_comm, isNearest_iff_value_eq_iff, or_iff_right hother]
    | double e => exact iff_of_true agrees_double_double (by simp [RoundsTo])

/-- **Numbers are matched by value unless one is the rounding of the other.**  For all numbers of
documents, a numeric literal accepts exactly the numbers of its own value, except where one of the
two is an integer that is no double and the other the nearest double. -/
theorem accepts_iff_value_eq_iff {a b : Number} (ha : a.Fits64) (hb : b.Fits64) :
    ((Literal.number a).accepts (.number b) = true ↔ a.value = b.value) ↔
      ¬ (a.RoundsTo b ∨ b.RoundsTo a) := by
  rw [Literal.accepts]
  exact agrees_iff_value_eq_iff ha hb

/-- The double `2 ^ 53 + 2`, the next above `2 ^ 53`. -/
def twoPow53Next : Double := ⟨false, Nat.pow 2 52 + 1, 1075, by decide⟩

theorem value_twoPow53Next : twoPow53Next.value = (9007199254740994 : Int) :=
  Double.value_eq_intCast_iff.2 (by decide +kernel)

/-- Of the two doubles next to `2 ^ 53 + 1` the even one is the nearest: with the other a literal is
matched by value. -/
theorem accepts_iff_value_eq_iff_twoPow53Next :
    (integer 9007199254740993).Fits64 ∧ (double twoPow53Next).Fits64 ∧
      ¬ ((integer 9007199254740993).RoundsTo (double twoPow53Next) ∨
        (double twoPow53Next).RoundsTo (integer 9007199254740993)) := by
  have hfits : (integer 9007199254740993).Fits64 := ⟨by decide, by decide⟩
  have hfitsNext : (double twoPow53Next).Fits64 := trivial
  have hrejects : ¬ (Literal.number (integer 9007199254740993)).accepts
      (.number (double twoPow53Next)) = true := by
    decide +kernel
  have hvalue : (integer 9007199254740993).value ≠ (double twoPow53Next).value := by
    rw [value, value, value_twoPow53Next, ne_eq, Int.cast_inj]
    decide
  exact ⟨hfits, hfitsNext,
    (accepts_iff_value_eq_iff hfits hfitsNext).1 (iff_of_false hrejects hvalue)⟩

/-- The double `2 ^ 53`. -/
def twoPow53 : Double := ⟨false, Nat.pow 2 52, 1075, by decide⟩

theorem value_twoPow53 : twoPow53.value = (9007199254740992 : Int) :=
  Double.value_eq_intCast_iff.2 (by decide +kernel)

/-- A match of numbers that are not the same: the integer `2 ^ 53 + 1` is matched by the double
`2 ^ 53`, and so is the integer `2 ^ 53`, while the two integers do not match. -/
theorem accepts_rounded_integer :
    (Literal.number (integer 9007199254740993)).accepts (.number (double twoPow53)) = true ∧
      (integer 9007199254740993).value ≠ (double twoPow53).value ∧
      (Literal.number (double twoPow53)).accepts (.number (integer 9007199254740992)) = true ∧
      (Literal.number (integer 9007199254740993)).accepts
        (.number (integer 9007199254740992)) = false := by
  refine ⟨by decide +kernel, ?_, by decide +kernel, by decide +kernel⟩
  rw [value, value, value_twoPow53, ne_eq, Int.cast_inj]
  decide

/-! ### Exact numbers -/

/-- A double, or an integer up to `2 ^ 53`, which is the value of a double. -/
def IsExact : Number → Prop
  | integer n => n.natAbs ≤ 2 ^ 53
  | double _ => True

theorem fits64_of_isExact {a : Number} (h : a.IsExact) : a.Fits64 := by
  cases a with
  | integer n =>
    rw [IsExact] at h
    rw [Fits64]
    omega
  | double _ => exact trivial

theorem not_roundsTo_of_isExact {a b : Number} (h : a.IsExact) : ¬ a.RoundsTo b := by
  cases a with
  | integer n =>
    cases b with
    | integer _ => exact id
    | double d => exact fun hrounds => hrounds.1 (Double.value_eq_of_isNearest h hrounds.2)
  | double _ => exact id

/-- Integers up to `2 ^ 53` and doubles are matched by value. -/
theorem accepts_iff_value_eq {a b : Number} (ha : a.IsExact) (hb : b.IsExact) :
    (Literal.number a).accepts (.number b) = true ↔ a.value = b.value := by
  rw [Literal.accepts]
  refine (agrees_iff_value_eq_iff (fits64_of_isExact ha) (fits64_of_isExact hb)).2 ?_
  rintro (hrounds | hrounds)
  · exact not_roundsTo_of_isExact ha hrounds
  · exact not_roundsTo_of_isExact hb hrounds

end Number

end DocShape
