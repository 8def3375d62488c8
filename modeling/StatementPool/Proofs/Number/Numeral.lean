import Mathlib.Data.List.Basic
import Mathlib.Tactic.Ring
import StatementPool.Number.Numeral
/-!
# What numerals say

A numeral consists of digits, has no zero in front unless it is the zero, and its digits give back the number
(`toNat_ofNat`). Padding changes the length alone: `padded` writes exactly the given number of digits as long as the
number has no more (`length_padded`), and they give back the number (`toNat_padded`).
-/

namespace StatementPool.Numeral

/-! ## Digits -/

theorem isDigit_digit : ∀ d < 10, isDigit (digit d) = true := by decide

theorem value_digit : ∀ d < 10, value (digit d) = d := by decide

theorem digit_eq_zero : ∀ d < 10, digit d = '0' → d = 0 := by decide

theorem ne_of_isDigit {c d : Char} (digit : isDigit c = true) (other : isDigit d = false) : c ≠ d := by
  rintro rfl
  rw [digit] at other
  exact absurd other (by decide)

/-- A text of digits only. -/
def AreDigits (ds : List Char) : Prop := ∀ c ∈ ds, isDigit c = true

instance (ds : List Char) : Decidable (AreDigits ds) := decidable_of_iff (ds.all isDigit = true) List.all_eq_true

/-- The number of the digits of a number with more digits behind them. -/
def extend (n : Nat) (ds : List Char) : Nat := ds.foldl (fun acc c => acc * 10 + value c) n

theorem le_extend (n : Nat) (ds : List Char) : n ≤ extend n ds := by
  induction ds generalizing n with
  | nil => exact Nat.le_refl n
  | cons d ds ih => exact Nat.le_trans (by omega) (ih (n * 10 + value d))

/-! ## Numerals -/

theorem areDigits_ofNat (n : Nat) : AreDigits (ofNat n) := by
  induction n using ofNat.induct with
  | case1 n small =>
    rw [ofNat, if_pos small]
    simpa [AreDigits] using isDigit_digit n small
  | case2 n large ih =>
    rw [ofNat, if_neg large]
    intro c hc
    obtain hc | rfl : c ∈ ofNat (n / 10) ∨ c = digit (n % 10) := by simpa using hc
    · exact ih c hc
    · exact isDigit_digit _ (Nat.mod_lt n (by decide))

theorem ofNat_ne_nil (n : Nat) : ofNat n ≠ [] := by
  rw [ofNat]
  split <;> simp

theorem toNat_append_digit (ds : List Char) (c : Char) : toNat (ds ++ [c]) = toNat ds * 10 + value c := by
  simp [toNat]

@[simp] theorem toNat_ofNat (n : Nat) : toNat (ofNat n) = n := by
  induction n using ofNat.induct with
  | case1 n small =>
    rw [ofNat, if_pos small]
    simpa [toNat] using value_digit n small
  | case2 n large ih =>
    rw [ofNat, if_neg large, toNat_append_digit, ih, value_digit _ (Nat.mod_lt n (by decide))]
    omega

/-- Only the numeral of zero begins with a zero. -/
theorem head_ofNat {n : Nat} (h : (ofNat n).head? = some '0') : n = 0 := by
  induction n using ofNat.induct with
  | case1 n small =>
    rw [ofNat, if_pos small] at h
    exact digit_eq_zero n small (by simpa using h)
  | case2 n large ih =>
    rw [ofNat, if_neg large, List.head?_append_of_ne_nil _ (ofNat_ne_nil _)] at h
    have := ih h
    omega

theorem length_ofNat_le {n width : Nat} (pos : 0 < width) (h : n < 10 ^ width) : (ofNat n).length ≤ width := by
  induction n using ofNat.induct generalizing width with
  | case1 n small =>
    rw [ofNat, if_pos small]
    exact pos
  | case2 n large ih =>
    obtain ⟨width, rfl⟩ : ∃ k, width = k + 1 := ⟨width - 1, by omega⟩
    have shorter : n / 10 < 10 ^ width := by
      rw [pow_succ] at h
      omega
    have pos' : 0 < width := by
      refine Nat.pos_of_ne_zero fun zero => ?_
      subst zero
      omega
    rw [ofNat, if_neg large, List.length_append]
    exact Nat.succ_le_succ (ih pos' shorter)

/-! ## Padded numerals -/

theorem areDigits_padded (width n : Nat) : AreDigits (padded width n) := by
  intro c hc
  obtain hc | hc := List.mem_append.1 hc
  · rw [List.eq_of_mem_replicate hc]
    decide
  · exact areDigits_ofNat n c hc

theorem length_padded {width n : Nat} (pos : 0 < width) (h : n < 10 ^ width) : (padded width n).length = width := by
  have := length_ofNat_le pos h
  rw [padded, List.length_append, List.length_replicate]
  omega

theorem toNat_zeros_append (k : Nat) (ds : List Char) : toNat (List.replicate k '0' ++ ds) = toNat ds := by
  induction k with
  | zero => rfl
  | succ k ih => exact ih

@[simp] theorem toNat_padded (width n : Nat) : toNat (padded width n) = n := by
  rw [padded, toNat_zeros_append, toNat_ofNat]

end StatementPool.Numeral
