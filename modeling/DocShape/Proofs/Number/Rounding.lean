import DocShape.Number.Double
import Mathlib.Algebra.Group.Nat.Even
import Mathlib.Tactic.Ring

/-!
# Integers rounded to doubles

An integer is converted to a double by one rounding of its number of units to a multiple
of a power of two.  Doubles of that exponent or a larger one are such multiples, and
doubles of a smaller exponent lie below all of them that matter.  So of all doubles the
result is nearest to the integer, and of two at the same distance it is the one with the
even mantissa.

* `Double.distance`: how far a double is from an integer.
* `Double.roundHalfEven_cases`: a rounded quotient against any other whole number.
* `Double.distance_lt_or_tie`: **the converted integer against any other double**.
* `Double.exists_ofInt?_eq`: every integer of 64 bits has a double.
* `Double.distance_eq_zero_of_le`: an integer up to `2 ^ 53` is not rounded.
-/

namespace DocShape.Double

/-- How far a double is from an integer, in units. -/
def distance (d : Double) (n : Int) : Nat := (d.units - n * unitsPerOne).natAbs

/-! ### Rounded quotients -/

theorem roundHalfEven_bounds (num den : Nat) :
    num / den ≤ roundHalfEven num den ∧ roundHalfEven num den ≤ num / den + 1 := by
  unfold roundHalfEven
  dsimp only
  split
  · omega
  · split <;> omega

/-- A whole number other than the rounded quotient is farther away, or as far and odd while the
rounded quotient is even. -/
theorem roundHalfEven_cases {num den k : Nat} (hden : 0 < den) (hk : k ≠ roundHalfEven num den) :
    ((roundHalfEven num den * den : Nat) - num : Int).natAbs < ((k * den : Nat) - num : Int).natAbs ∨
      ((roundHalfEven num den * den : Nat) - num : Int).natAbs =
          ((k * den : Nat) - num : Int).natAbs ∧
        roundHalfEven num den % 2 = 0 ∧ k % 2 = 1 := by
  have hnum : den * (num / den) + num % den = num := Nat.div_add_mod num den
  have hmod : num % den < den := Nat.mod_lt num hden
  unfold roundHalfEven at hk ⊢
  dsimp only at hk ⊢
  generalize num / den = q at *
  generalize num % den = m at *
  -- The candidates are `q` and `q + 1`; any other multiple is at least one step further out.
  have hbelow : k < q → k * den + den ≤ q * den := by
    intro h
    rw [← Nat.succ_mul]
    exact Nat.mul_le_mul_right den h
  have habove : q + 1 < k → q * den + den + den ≤ k * den := by
    intro h
    rw [← Nat.succ_mul, ← Nat.succ_mul]
    exact Nat.mul_le_mul_right den h
  have hnext : (q + 1) * den = q * den + den := Nat.succ_mul q den
  have hcomm : den * q = q * den := Nat.mul_comm den q
  have hat : k = q → k * den = q * den := fun h => by rw [h]
  have hatNext : k = q + 1 → k * den = q * den + den := fun h => by rw [h, hnext]
  split at hk
  · next hless =>
    rw [if_pos hless]
    omega
  · next hless =>
    rw [if_neg hless]
    split at hk
    · next hmore =>
      rw [if_pos hmore, hnext]
      omega
    · next hmore =>
      rw [if_neg hmore]
      rcases Nat.mod_two_eq_zero_or_one q with hparity | hparity
      · rw [hparity, Nat.add_zero] at hk ⊢
        omega
      · rw [hparity] at hk ⊢
        rw [hnext]
        omega

/-! ### Doubles on a grid -/

/-- A double is a multiple of a power of two, or lies below `2 ^ 52` times that power.  An odd
multiple is the mantissa. -/
theorem magnitude_cases (d : Double) (exponent : Nat) :
    (∃ k, d.magnitude = k * 2 ^ exponent ∧ (k % 2 = 1 → d.mantissa = k)) ∨
      0 < exponent ∧ d.magnitude < 2 ^ 52 * 2 ^ exponent := by
  have hmagnitude : d.magnitude = d.mantissa * 2 ^ d.exponent := rfl
  rcases Nat.lt_or_ge d.exponent exponent with hlt | hge
  · refine Or.inr ⟨by omega, ?_⟩
    obtain ⟨j, rfl⟩ := Nat.exists_eq_add_of_lt hlt
    have hmantissa : d.mantissa < 2 ^ 53 := d.canonical.1
    calc d.magnitude = d.mantissa * 2 ^ d.exponent := hmagnitude
      _ < 2 ^ 53 * 2 ^ d.exponent := Nat.mul_lt_mul_of_pos_right hmantissa (Nat.two_pow_pos _)
      _ = 2 ^ 52 * 2 ^ (d.exponent + 1) := by ring
      _ ≤ 2 ^ 52 * 2 ^ (d.exponent + j + 1) :=
        Nat.mul_le_mul_left _ (Nat.pow_le_pow_right (by decide) (by omega))
  · obtain ⟨j, hj⟩ := Nat.exists_eq_add_of_le hge
    refine Or.inl ⟨d.mantissa * 2 ^ j, ?_, ?_⟩
    · rw [hmagnitude, hj]
      ring
    · intro hodd
      cases j with
      | zero => rw [pow_zero, Nat.mul_one]
      | succ j =>
        rw [pow_succ, ← Nat.mul_assoc, Nat.mul_mod_left] at hodd
        cases hodd

/-- The exponent at which a number of units is rounded. -/
def gridExponent (units : Nat) : Nat := Nat.log2 units - 52

/-- The multiple of that power of two which it is rounded to. -/
def gridMultiple (units : Nat) : Nat := roundHalfEven units (2 ^ gridExponent units)

/-- The number of units lies between the multiples that have 53 bits. -/
theorem gridExponent_bounds (units : Nat) :
    (gridExponent units = 0 ∨ 2 ^ 52 * 2 ^ gridExponent units ≤ units) ∧
      units < 2 ^ 53 * 2 ^ gridExponent units := by
  rw [gridExponent]
  constructor
  · rcases Nat.lt_or_ge 52 (Nat.log2 units) with hlarge | hsmall
    · right
      have hpos : units ≠ 0 := by
        rintro rfl
        simp at hlarge
      rw [← pow_add, Nat.add_sub_cancel' (Nat.le_of_lt hlarge)]
      exact Nat.log2_self_le hpos
    · left
      omega
  · rw [← pow_add]
    exact Nat.lt_of_lt_of_le Nat.lt_log2_self (Nat.pow_le_pow_right (by decide) (by omega))

theorem gridExponent_le {units exponent : Nat} (h : units < 2 ^ (53 + exponent)) :
    gridExponent units ≤ exponent := by
  rcases (gridExponent_bounds units).1 with hzero | hlow
  · omega
  · rw [← pow_add] at hlow
    have hlt := (Nat.pow_lt_pow_iff_right (by decide)).1 (Nat.lt_of_le_of_lt hlow h)
    omega

theorem gridMultiple_bounds (units : Nat) :
    (gridExponent units = 0 ∨ 2 ^ 52 ≤ gridMultiple units) ∧ gridMultiple units ≤ 2 ^ 53 := by
  obtain ⟨hlow, hhigh⟩ := gridExponent_bounds units
  obtain ⟨hfloor, hceil⟩ := roundHalfEven_bounds units (2 ^ gridExponent units)
  constructor
  · refine hlow.imp_right fun hlow => ?_
    exact Nat.le_trans ((Nat.le_div_iff_mul_le (Nat.two_pow_pos _)).2 hlow) hfloor
  · rw [Nat.mul_comm] at hhigh
    exact Nat.le_trans hceil (Nat.div_lt_of_lt_mul hhigh)

/-! ### Converted integers -/

theorem nearest?_one (negative : Bool) (n : Nat) : nearest? negative n 1 =
    if gridMultiple (n * unitsPerOne) = 2 ^ 53 then
      ofParts? negative (2 ^ 52) (gridExponent (n * unitsPerOne) + 1)
    else ofParts? negative (gridMultiple (n * unitsPerOne)) (gridExponent (n * unitsPerOne)) := by
  rw [nearest?, Nat.div_one, Nat.one_mul]
  rfl

theorem of_ofParts?_eq_some {negative : Bool} {mantissa exponent : Nat} {d : Double}
    (h : ofParts? negative mantissa exponent = some d) :
    d.negative = negative ∧ d.mantissa = mantissa ∧ d.exponent = exponent := by
  unfold ofParts? at h
  split at h
  · cases h
    exact ⟨rfl, rfl, rfl⟩
  · cases h

/-- A converted integer has its sign and its multiple, and an even mantissa for an even multiple. -/
theorem of_ofInt?_eq_some {n : Int} {d : Double} (h : ofInt? n = some d) :
    d.negative = decide (n < 0) ∧
      d.magnitude = gridMultiple (n.natAbs * unitsPerOne) *
        2 ^ gridExponent (n.natAbs * unitsPerOne) ∧
      (gridMultiple (n.natAbs * unitsPerOne) % 2 = 0 → d.mantissa % 2 = 0) := by
  have hmagnitude : d.magnitude = d.mantissa * 2 ^ d.exponent := rfl
  rw [ofInt?, nearest?_one] at h
  split at h
  · next hcarry =>
    obtain ⟨hnegative, hmantissa, hexponent⟩ := of_ofParts?_eq_some h
    refine ⟨hnegative, ?_, fun _ => ?_⟩
    · rw [hmagnitude, hmantissa, hexponent, hcarry]
      ring
    · rw [hmantissa]
      rfl
  · obtain ⟨hnegative, hmantissa, hexponent⟩ := of_ofParts?_eq_some h
    rw [hmagnitude, hmantissa, hexponent]
    exact ⟨hnegative, rfl, fun heven => heven⟩

/-- Every integer of at most 64 bits has a double. -/
theorem exists_ofInt?_eq {n : Int} (h : n.natAbs ≤ 2 ^ 64) : ∃ d, ofInt? n = some d := by
  have hunits : n.natAbs * unitsPerOne < 2 ^ (53 + 1086) :=
    Nat.lt_of_le_of_lt (Nat.mul_le_mul_right _ h) (by decide +kernel)
  have hexponent := gridExponent_le hunits
  obtain ⟨hge, hle⟩ := gridMultiple_bounds (n.natAbs * unitsPerOne)
  rw [ofInt?, nearest?_one]
  split
  · exact ⟨_, dif_pos ⟨by decide, by omega, Or.inl (Nat.le_refl _)⟩⟩
  · next hcarry =>
    exact ⟨_, dif_pos ⟨Nat.lt_of_le_of_ne hle hcarry, by omega, hge.symm⟩⟩

/-! ### Distances -/

/-- A double of the sign of the integer: the magnitudes are compared. -/
theorem distance_of_negative_eq {d : Double} {n : Int} (h : d.negative = decide (n < 0)) :
    d.distance n = ((d.magnitude : Int) - (n.natAbs * unitsPerOne : Nat)).natAbs := by
  rw [distance, units, h, Nat.cast_mul, Int.natCast_natAbs]
  rcases Int.lt_or_le n 0 with hn | hn
  · rw [decide_eq_true hn, if_pos rfl, abs_of_neg hn, neg_mul]
    omega
  · rw [decide_eq_false (Int.not_lt.2 hn), if_neg Bool.false_ne_true, abs_of_nonneg hn]

/-- A double of the other sign: the magnitudes add up. -/
theorem distance_of_negative_ne {d : Double} {n : Int} (h : d.negative ≠ decide (n < 0)) :
    d.distance n = d.magnitude + n.natAbs * unitsPerOne := by
  have hcast : (n.natAbs * unitsPerOne : Nat) = |n| * (unitsPerOne : Int) := by
    rw [Nat.cast_mul, Int.natCast_natAbs]
  rw [distance, units]
  rcases Int.lt_or_le n 0 with hn | hn
  · rw [decide_eq_true hn, ne_eq, Bool.not_eq_true] at h
    rw [abs_of_neg hn, neg_mul] at hcast
    rw [h, if_neg Bool.false_ne_true]
    omega
  · rw [decide_eq_false (Int.not_lt.2 hn), ne_eq, Bool.not_eq_false] at h
    rw [abs_of_nonneg hn] at hcast
    rw [h, if_pos rfl]
    omega

theorem units_eq_zero_iff {d : Double} : d.units = 0 ↔ d.magnitude = 0 := by
  rw [units]
  split <;> omega

/-- A converted integer against any other multiple of its power of two. -/
theorem distance_lt_multiple_or_tie {n : Int} {x : Double} (hx : ofInt? n = some x) {k : Nat}
    (hk : k ≠ gridMultiple (n.natAbs * unitsPerOne)) :
    x.distance n < ((k * 2 ^ gridExponent (n.natAbs * unitsPerOne) : Nat) -
          (n.natAbs * unitsPerOne : Nat) : Int).natAbs ∨
      x.distance n = ((k * 2 ^ gridExponent (n.natAbs * unitsPerOne) : Nat) -
          (n.natAbs * unitsPerOne : Nat) : Int).natAbs ∧ x.mantissa % 2 = 0 ∧ k % 2 = 1 := by
  obtain ⟨hsign, hmagnitude, heven⟩ := of_ofInt?_eq_some hx
  rw [distance_of_negative_eq hsign, hmagnitude]
  rcases roundHalfEven_cases (Nat.two_pow_pos _) hk with hlt | ⟨heq, hround, hodd⟩
  · exact Or.inl hlt
  · exact Or.inr ⟨heq, heven hround, hodd⟩

/-- A double of the other sign is farther away than the converted integer. -/
theorem distance_lt_of_negative_ne {n : Int} {x d : Double} (hx : ofInt? n = some x)
    (hd : d.units ≠ x.units) (hsign : d.negative ≠ decide (n < 0)) :
    x.distance n < d.distance n := by
  obtain ⟨hsignx, hmagnitude, -⟩ := of_ofInt?_eq_some hx
  rw [distance_of_negative_ne hsign]
  by_cases hzero : 0 = gridMultiple (n.natAbs * unitsPerOne)
  · rw [← hzero, Nat.zero_mul] at hmagnitude
    have hunits : x.units = 0 := units_eq_zero_iff.2 hmagnitude
    have hpos : d.magnitude ≠ 0 := by
      rw [hunits] at hd
      exact mt units_eq_zero_iff.2 hd
    rw [distance_of_negative_eq hsignx, hmagnitude]
    omega
  · rcases distance_lt_multiple_or_tie hx hzero with hlt | ⟨-, -, hodd⟩
    · rw [Nat.zero_mul] at hlt
      omega
    · cases hodd

/-- **A converted integer against any other double**: the other is farther away, or as far and odd
while the converted integer is even. -/
theorem distance_lt_or_tie {n : Int} {x d : Double} (hx : ofInt? n = some x)
    (hd : d.units ≠ x.units) :
    x.distance n < d.distance n ∨
      x.distance n = d.distance n ∧ x.mantissa % 2 = 0 ∧ d.mantissa % 2 = 1 := by
  by_cases hsign : d.negative = decide (n < 0)
  · obtain ⟨hsignx, hmagnitude, -⟩ := of_ofInt?_eq_some hx
    have hlow := (gridExponent_bounds (n.natAbs * unitsPerOne)).1
    rw [distance_of_negative_eq hsign]
    rcases magnitude_cases d (gridExponent (n.natAbs * unitsPerOne)) with
      ⟨k, hk, hmantissa⟩ | ⟨hpos, hbelow⟩
    · have hne : k ≠ gridMultiple (n.natAbs * unitsPerOne) := by
        intro heq
        rw [heq, ← hmagnitude] at hk
        exact hd (by rw [units, units, hk, hsign, hsignx])
      rw [hk]
      refine (distance_lt_multiple_or_tie hx hne).imp_right ?_
      rintro ⟨heq, heven, hodd⟩
      exact ⟨heq, heven, (hmantissa hodd).symm ▸ hodd⟩
    · -- The least multiple of 53 bits lies between the double and the integer.
      left
      have hunits := hlow.resolve_left (Nat.ne_of_gt hpos)
      have hle : x.distance n ≤ n.natAbs * unitsPerOne -
          2 ^ 52 * 2 ^ gridExponent (n.natAbs * unitsPerOne) := by
        by_cases heq : 2 ^ 52 = gridMultiple (n.natAbs * unitsPerOne)
        · rw [distance_of_negative_eq hsignx, hmagnitude, ← heq]
          omega
        · rcases distance_lt_multiple_or_tie hx heq with hlt | ⟨htie, -, -⟩
          · omega
          · omega
      omega
  · exact Or.inl (distance_lt_of_negative_ne hx hd hsign)

/-! ### Exact integers -/

/-- Up to `2 ^ 53` the number of units is a multiple of its power of two. -/
theorem two_pow_gridExponent_dvd {n : Nat} (h : n ≤ 2 ^ 53) :
    2 ^ gridExponent (n * unitsPerOne) ∣ n * unitsPerOne := by
  obtain ⟨k, hunits⟩ : ∃ k, unitsPerOne = 2 ^ k := ⟨1074, by decide +kernel⟩
  rw [hunits]
  have hle : n * 2 ^ k ≤ 2 ^ 53 * 2 ^ k := Nat.mul_le_mul_right _ h
  have hexponent : gridExponent (n * 2 ^ k) ≤ k + 1 := by
    refine gridExponent_le (Nat.lt_of_le_of_lt hle ?_)
    rw [← pow_add]
    exact Nat.pow_lt_pow_right (by decide) (by omega)
  rcases Nat.lt_or_eq_of_le hexponent with hlt | heq
  · exact Dvd.dvd.mul_left (pow_dvd_pow 2 (Nat.le_of_lt_succ hlt)) n
  · -- One exponent higher there is only `2 ^ 53` itself.
    have hlow := (gridExponent_bounds (n * 2 ^ k)).1.resolve_left (by omega)
    rw [heq] at hlow ⊢
    have hall : n * 2 ^ k = 2 ^ 52 * 2 ^ (k + 1) :=
      Nat.le_antisymm (Nat.le_trans hle (Nat.le_of_eq (by ring))) hlow
    exact ⟨2 ^ 52, by rw [hall, Nat.mul_comm]⟩

/-- An integer up to `2 ^ 53` is not rounded. -/
theorem distance_eq_zero_of_le {n : Int} {x : Double} (hx : ofInt? n = some x)
    (h : n.natAbs ≤ 2 ^ 53) : x.distance n = 0 := by
  obtain ⟨k, hk⟩ := two_pow_gridExponent_dvd h
  have hunits : n.natAbs * unitsPerOne = k * 2 ^ gridExponent (n.natAbs * unitsPerOne) :=
    hk.trans (Nat.mul_comm _ _)
  by_cases hmultiple : k = gridMultiple (n.natAbs * unitsPerOne)
  · obtain ⟨hsign, hmagnitude, -⟩ := of_ofInt?_eq_some hx
    rw [distance_of_negative_eq hsign, hmagnitude, ← hmultiple]
    omega
  · rcases distance_lt_multiple_or_tie hx hmultiple with hlt | ⟨heq, -, -⟩
    · omega
    · omega

end DocShape.Double
