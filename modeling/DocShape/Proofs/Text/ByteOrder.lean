import Mathlib.Data.List.Sort

/-!
# The order of texts and of their bytes

Texts are ordered by their characters, and UTF-8 keeps that order: the bytes of
the smaller text are the smaller list of bytes.

A character is written as a number in digits of six bits, each in a byte of its
own; the first byte also says how many follow, by an offset that is larger the
more there are.  So of two characters the smaller one has the smaller byte where
their bytes first differ, whatever follows them.

* `Precedes`: two lists differ at some place, and the first has the smaller byte there.
* `precedes_utf8EncodeChar`: **the bytes of a smaller character precede**.
* `utf8Bytes_lt`: the bytes of a smaller text are smaller.
* `pairwise_mergeSort`: what is sorted by its names is in the order of their bytes.
* `eq_of_pairwise_bytes`: and there is only one list of it in that order.
-/

namespace DocShape.Text

/-! ### Bytes in order -/

/-- Whether two lists of bytes differ at some place, with the smaller byte in the first list at the
first such place. -/
def Precedes : List UInt8 → List UInt8 → Prop
  | x :: xs, y :: ys => x < y ∨ x = y ∧ Precedes xs ys
  | _, _ => False

/-- What follows two lists that differ does not matter. -/
theorem Precedes.append_lt {xs ys : List UInt8} (h : Precedes xs ys) (xs' ys' : List UInt8) :
    xs ++ xs' < ys ++ ys' := by
  induction xs generalizing ys with
  | nil => cases h
  | cons x xs ih =>
    cases ys with
    | nil => cases h
    | cons y ys =>
      rcases h with hlt | ⟨rfl, htail⟩
      · exact List.Lex.rel hlt
      · exact List.Lex.cons (ih htail)

theorem append_lt_append (xs : List UInt8) {ys zs : List UInt8} (h : ys < zs) :
    xs ++ ys < xs ++ zs := by
  induction xs with
  | nil => exact h
  | cons x xs ih => exact List.Lex.cons ih

theorem ofNat_lt {m n : Nat} (h : m < n) (hn : n < 256) : UInt8.ofNat m < UInt8.ofNat n := by
  rw [UInt8.lt_iff_toNat_lt, UInt8.toNat_ofNat', UInt8.toNat_ofNat', Nat.mod_eq_of_lt hn,
    Nat.mod_eq_of_lt (by omega)]
  exact h

/-! ### Characters -/

/-- What a digit is worth that stands before the last `digits` digits. -/
def weight : (digits : Nat) → Nat
  | 0 => 1
  | digits + 1 => weight digits * 64

/-- The last digits of a number, in bytes that continue a character. -/
def continuation : (digits : Nat) → Nat → List UInt8
  | 0, _ => []
  | digits + 1, n => UInt8.ofNat (n / weight digits % 64 + 0x80) :: continuation digits n

/-- Numbers that agree in all digits before the last ones are told apart by these. -/
theorem precedes_continuation (digits : Nat) : ∀ {m n : Nat},
    m / weight digits = n / weight digits → m < n →
      Precedes (continuation digits m) (continuation digits n) := by
  induction digits with
  | zero =>
    intro m n hhigh hlt
    rw [weight, Nat.div_one, Nat.div_one] at hhigh
    omega
  | succ digits ih =>
    intro m n hhigh hlt
    rw [weight, ← Nat.div_div_eq_div_mul, ← Nat.div_div_eq_div_mul] at hhigh
    have hle : m / weight digits ≤ n / weight digits := Nat.div_le_div_right (Nat.le_of_lt hlt)
    rcases Nat.lt_or_eq_of_le hle with hdigit | hdigit
    · exact Or.inl (ofNat_lt (by omega) (by omega))
    · exact Or.inr ⟨by rw [hdigit], ih hdigit hlt⟩

/-- How a code point `n` is written: how many bytes follow the first one, and its offset. -/
def Utf8Form (digits offset n : Nat) : Prop :=
  digits = 0 ∧ offset = 0 ∧ n < 0x80 ∨
  digits = 1 ∧ offset = 0xc0 ∧ 0x80 ≤ n ∧ n < 0x800 ∨
  digits = 2 ∧ offset = 0xe0 ∧ 0x800 ≤ n ∧ n < 0x10000 ∨
  digits = 3 ∧ offset = 0xf0 ∧ 0x10000 ≤ n ∧ n < 0x110000

namespace Utf8Form

variable {digits offset m n : Nat}

theorem first_lt (h : Utf8Form digits offset n) : n / weight digits + offset < 256 := by
  rcases h with ⟨rfl, rfl, h⟩ | ⟨rfl, rfl, h⟩ | ⟨rfl, rfl, h⟩ | ⟨rfl, rfl, h⟩ <;>
    simp only [weight] <;> omega

/-- A smaller code point has the same form or a smaller first byte. -/
theorem eq_or_first_lt {digits' offset' : Nat} (hm : Utf8Form digits offset m)
    (hn : Utf8Form digits' offset' n) (hlt : m < n) : digits = digits' ∧ offset = offset' ∨
      m / weight digits + offset < n / weight digits' + offset' := by
  rcases hm with ⟨rfl, rfl, hm⟩ | ⟨rfl, rfl, hm⟩ | ⟨rfl, rfl, hm⟩ | ⟨rfl, rfl, hm⟩ <;>
    rcases hn with ⟨rfl, rfl, hn⟩ | ⟨rfl, rfl, hn⟩ | ⟨rfl, rfl, hn⟩ | ⟨rfl, rfl, hn⟩ <;>
      first
      | exact Or.inl ⟨rfl, rfl⟩
      | exact Or.inr (by simp only [weight]; omega)

end Utf8Form

theorem exists_utf8EncodeChar_eq (c : Char) : ∃ digits offset, Utf8Form digits offset c.toNat ∧
    String.utf8EncodeChar c =
      UInt8.ofNat (c.toNat / weight digits + offset) :: continuation digits c.toNat := by
  have hmax : c.toNat < 0x110000 := by
    rcases c.valid with h | h
    · exact Nat.lt_trans h (by decide)
    · exact h.2
  have hval : c.val.toNat = c.toNat := rfl
  rw [String.utf8EncodeChar, hval]
  by_cases hone : c.toNat ≤ 0x7f
  · refine ⟨0, 0, Or.inl ⟨rfl, rfl, by omega⟩, ?_⟩
    rw [if_pos hone, weight, Nat.div_one]
    rfl
  by_cases htwo : c.toNat ≤ 0x7ff
  · refine ⟨1, 0xc0, Or.inr (Or.inl ⟨rfl, rfl, by omega, by omega⟩), ?_⟩
    have hfirst : c.toNat / 64 % 32 = c.toNat / 64 := Nat.mod_eq_of_lt (by omega)
    rw [if_neg hone, if_pos htwo, hfirst]
    simp [continuation, weight]
  by_cases hthree : c.toNat ≤ 0xffff
  · refine ⟨2, 0xe0, Or.inr (Or.inr (Or.inl ⟨rfl, rfl, by omega, by omega⟩)), ?_⟩
    have hfirst : c.toNat / 4096 % 16 = c.toNat / 4096 := Nat.mod_eq_of_lt (by omega)
    rw [if_neg hone, if_neg htwo, if_pos hthree, hfirst]
    simp [continuation, weight]
  · refine ⟨3, 0xf0, Or.inr (Or.inr (Or.inr ⟨rfl, rfl, by omega, by omega⟩)), ?_⟩
    have hfirst : c.toNat / 262144 % 8 = c.toNat / 262144 := Nat.mod_eq_of_lt (by omega)
    rw [if_neg hone, if_neg htwo, if_neg hthree, hfirst]
    simp [continuation, weight]

/-- **The bytes of a smaller character precede.** -/
theorem precedes_utf8EncodeChar {c d : Char} (h : c < d) :
    Precedes (String.utf8EncodeChar c) (String.utf8EncodeChar d) := by
  have hlt : c.toNat < d.toNat := h
  obtain ⟨digits, offset, hform, hc⟩ := exists_utf8EncodeChar_eq c
  obtain ⟨digits', offset', hform', hd⟩ := exists_utf8EncodeChar_eq d
  rw [hc, hd]
  rcases hform.eq_or_first_lt hform' hlt with ⟨rfl, rfl⟩ | hfirst
  · have hle : c.toNat / weight digits ≤ d.toNat / weight digits :=
      Nat.div_le_div_right (Nat.le_of_lt hlt)
    rcases Nat.lt_or_eq_of_le hle with hdigit | hdigit
    · exact Or.inl (ofNat_lt (by omega) hform'.first_lt)
    · exact Or.inr ⟨by rw [hdigit], precedes_continuation digits hdigit hlt⟩
  · exact Or.inl (ofNat_lt hfirst hform'.first_lt)

/-! ### Texts -/

/-- The bytes of a text in UTF-8. -/
def utf8Bytes (s : String) : List UInt8 := s.toUTF8.data.toList

theorem utf8Bytes_eq (s : String) : utf8Bytes s = s.toList.flatMap String.utf8EncodeChar := by
  rw [utf8Bytes, String.toUTF8_eq_toByteArray, ← String.utf8Encode_toList, List.utf8Encode,
    List.toList_data_toByteArray]

theorem utf8Bytes_lt {s t : String} (h : s < t) : utf8Bytes s < utf8Bytes t := by
  rw [utf8Bytes_eq, utf8Bytes_eq]
  have hlex : List.Lex (· < ·) s.toList t.toList := h
  generalize s.toList = cs at hlex ⊢
  generalize t.toList = ds at hlex ⊢
  induction hlex with
  | @nil d ds =>
    obtain ⟨_, _, _, hd⟩ := exists_utf8EncodeChar_eq d
    rw [List.flatMap_nil, List.flatMap_cons, hd, List.cons_append]
    exact List.Lex.nil
  | rel hlt =>
    rw [List.flatMap_cons, List.flatMap_cons]
    exact (precedes_utf8EncodeChar hlt).append_lt _ _
  | cons _ ih =>
    rw [List.flatMap_cons, List.flatMap_cons]
    exact append_lt_append _ ih

/-- What is sorted by its names is in the order of their bytes, if no two names are equal. -/
theorem pairwise_mergeSort {α : Type} (name : α → String) {items : List α}
    (hnames : (items.map name).Nodup) :
    (items.mergeSort fun a b => decide (name a ≤ name b)).Pairwise fun a b =>
      utf8Bytes (name a) < utf8Bytes (name b) := by
  have hsorted : (items.mergeSort fun a b => decide (name a ≤ name b)).Pairwise
      fun a b => decide (name a ≤ name b) = true := by
    refine List.pairwise_mergeSort ?_ ?_ _
    · intro a b c hab hbc
      rw [decide_eq_true_iff] at hab hbc ⊢
      exact String.le_trans hab hbc
    · intro a b
      rw [Bool.or_eq_true, decide_eq_true_iff, decide_eq_true_iff]
      exact String.le_total (name a) (name b)
  have hdistinct : ((items.mergeSort fun a b => decide (name a ≤ name b)).map name).Nodup :=
    ((List.mergeSort_perm _ _).map name).nodup_iff.2 hnames
  rw [List.Nodup, List.pairwise_map] at hdistinct
  refine (hsorted.and hdistinct).imp ?_
  rintro a b ⟨hle, hne⟩
  rw [decide_eq_true_iff] at hle
  exact utf8Bytes_lt (Std.lt_of_le_of_ne hle hne)

/-- There is only one list in the order of the bytes of names with given items. -/
theorem eq_of_pairwise_bytes {α : Type} {name : α → String} {items others : List α}
    (h : items.Pairwise fun a b => utf8Bytes (name a) < utf8Bytes (name b))
    (hothers : others.Pairwise fun a b => utf8Bytes (name a) < utf8Bytes (name b))
    (hmem : ∀ item, item ∈ items ↔ item ∈ others) : items = others := by
  have hirrefl : Std.Irrefl fun a b : α => utf8Bytes (name a) < utf8Bytes (name b) :=
    ⟨fun _ => List.lt_irrefl _⟩
  have hantisymm : Std.Antisymm fun a b : α => utf8Bytes (name a) < utf8Bytes (name b) :=
    ⟨fun _ _ hab hba => absurd hba (List.lt_asymm hab)⟩
  exact h.eq_of_mem_iff hothers hmem

end DocShape.Text
