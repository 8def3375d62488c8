import Mathlib.Data.Rat.Cast.Order
import Mathlib.Algebra.Order.Field.Power
import Mathlib.Tactic.FieldSimp
import Mathlib.Tactic.Linarith
import Mathlib.Tactic.NormNum
import Mathlib.Tactic.Positivity
import Mathlib.Tactic.Ring
import StatementPool.Number.Binary
/-!
# Numbers that a format has

A number of a format is a significand and an exponent in canonical form, and its pattern is one
natural number. We prove that rounding finds the pattern of a ratio that is such a number
(`Format.roundMagnitude_exact`), and that reading the pattern gives the significand and the
exponent back. The 64-bit format has every number of the 32-bit format, so widening loses nothing:
narrowing what was widened is the number itself (`Binary32.narrow_widen`). Neither narrowing a number
nor taking the one nearest to an integer gives a NaN.
-/

namespace StatementPool

/-! ## Ratios -/

theorem scaledRatio_pos {n d : Nat} (hd : 0 < d) (e : Int) : 0 < (scaledRatio n d e).2 := by
  cases e with
  | ofNat k => exact hd
  | negSucc k => exact Nat.mul_pos hd (Nat.pow_pos (by omega))

/-- Scaling multiplies the ratio by the power of two. -/
theorem scaledRatio_eq (n d : Nat) (e : Int) :
    ((scaledRatio n d e).1 : ℚ) / (scaledRatio n d e).2 = n / d * 2 ^ e := by
  cases e with
  | ofNat k =>
    simp only [scaledRatio, Nat.pow_eq, Nat.cast_mul, Nat.cast_pow, Nat.cast_ofNat, Int.ofNat_eq_natCast, zpow_natCast]
    ring
  | negSucc k =>
    simp only [scaledRatio, Nat.pow_eq, Nat.cast_mul, Nat.cast_pow, Nat.cast_ofNat, zpow_negSucc]
    rw [div_mul_eq_div_div, div_eq_mul_inv _ ((2 : ℚ) ^ (k + 1))]

/-- A ratio of the value `m · 2^e` is `m` after scaling. -/
theorem scaledRatio_exact {n d m : Nat} {e : Int} (hd : 0 < d) (hv : (n / d : ℚ) = m * 2 ^ e) :
    (scaledRatio n d (-e)).1 = m * (scaledRatio n d (-e)).2 := by
  have pos : ((scaledRatio n d (-e)).2 : ℚ) ≠ 0 := by exact_mod_cast (scaledRatio_pos hd (-e)).ne'
  have scaled := scaledRatio_eq n d (-e)
  rw [hv, mul_assoc, ← zpow_add₀ (by norm_num), add_neg_cancel, zpow_zero, mul_one, div_eq_iff pos] at scaled
  exact_mod_cast scaled

theorem log2_bounds {n : Nat} (hn : 0 < n) :
    (2 : ℚ) ^ (n.log2 : Int) ≤ n ∧ (n : ℚ) < 2 ^ (n.log2 + 1 : Int) := by
  have low : 2 ^ n.log2 ≤ n := Nat.log2_self_le (by omega)
  have high : n < 2 ^ (n.log2 + 1) := Nat.lt_log2_self
  constructor
  · rw [zpow_natCast]
    exact_mod_cast low
  · rw [← Nat.cast_succ, zpow_natCast]
    exact_mod_cast high

/-- The logarithm is the exponent of the greatest power of two that is not above the ratio. -/
theorem floorLog2_bounds {n d : Nat} (hn : 0 < n) (hd : 0 < d) :
    (2 : ℚ) ^ floorLog2 n d ≤ n / d ∧ (n / d : ℚ) < 2 ^ (floorLog2 n d + 1) := by
  have hd' : (0 : ℚ) < d := by exact_mod_cast hd
  obtain ⟨nl, nh⟩ := log2_bounds hn
  obtain ⟨dl, dh⟩ := log2_bounds hd
  have two : (2 : ℚ) ≠ 0 := by norm_num
  -- the difference of the two logarithms is the wanted one or one more
  have above : (n / d : ℚ) < 2 ^ ((n.log2 : Int) - d.log2 + 1) := by
    rw [div_lt_iff₀ hd']
    calc (n : ℚ) < 2 ^ (n.log2 + 1 : Int) := nh
      _ = 2 ^ ((n.log2 : Int) - d.log2 + 1) * 2 ^ (d.log2 : Int) := by rw [← zpow_add₀ two]; congr 1; ring
      _ ≤ _ := by gcongr
  have below : (2 : ℚ) ^ ((n.log2 : Int) - d.log2 - 1) < n / d := by
    rw [lt_div_iff₀ hd']
    calc (2 : ℚ) ^ ((n.log2 : Int) - d.log2 - 1) * d
        < 2 ^ ((n.log2 : Int) - d.log2 - 1) * 2 ^ (d.log2 + 1 : Int) := by gcongr
      _ = 2 ^ (n.log2 : Int) := by rw [← zpow_add₀ two]; congr 1; ring
      _ ≤ n := nl
  generalize hk : (n.log2 : Int) - d.log2 = k at above below
  have scaled := scaledRatio_eq n d (-k)
  have hs : (0 : ℚ) < (scaledRatio n d (-k)).2 := by exact_mod_cast scaledRatio_pos hd (-k)
  have cut : (scaledRatio n d (-k)).2 ≤ (scaledRatio n d (-k)).1 ↔ (2 : ℚ) ^ k ≤ n / d := by
    rw [← Nat.cast_le (α := ℚ), ← one_le_div hs, scaled, zpow_neg, ← div_eq_mul_inv, one_le_div (by positivity)]
  unfold floorLog2
  simp only [hk]
  split
  · rename_i h
    exact ⟨cut.1 h, above⟩
  · rename_i h
    refine ⟨below.le, ?_⟩
    rw [sub_add_cancel]
    exact lt_of_not_ge fun h' => h (cut.2 h')

theorem roundHalfEven_mul (m : Nat) {d : Nat} (hd : 0 < d) : roundHalfEven (m * d) d = m := by
  simp [roundHalfEven, Nat.mul_div_cancel _ hd, Nat.mul_mod_left]
  omega

namespace Format

variable {f : Format} {m : Nat} {e : Int}

/-! ## Canonical form -/

/-- The pattern of the number `m · 2^e`. -/
def pattern (f : Format) (m : Nat) (e : Int) : Nat := (e - f.minExponent).toNat * 2 ^ f.fraction + m

/-- A significand and an exponent as the format keeps them: a small significand has the least
exponent, and the number lies below infinity. -/
structure Canonical (f : Format) (m : Nat) (e : Int) : Prop where
  low : f.minExponent ≤ e
  small : m < 2 ^ (f.fraction + 1)
  normal : m < 2 ^ f.fraction → e = f.minExponent
  finite : f.pattern m e < f.infinity

theorem infinity_lt_signBit (f : Format) : f.infinity < f.signBit := by
  have hw : 0 < 2 ^ f.exponent := Nat.two_pow_pos _
  have hp : 0 < 2 ^ f.fraction := Nat.two_pow_pos _
  simp only [infinity, signBit, Nat.pow_eq, Nat.pow_add]
  exact Nat.mul_lt_mul_of_pos_right (by omega) hp

/-- The exponent of a canonical number is what rounding computes from its logarithm. -/
theorem Canonical.exponent_eq (hc : f.Canonical m e) {k : Int} (hl : (2 : ℚ) ^ k ≤ m * 2 ^ e)
    (hu : (m : ℚ) * 2 ^ e < 2 ^ (k + 1)) : max (k - f.fraction) f.minExponent = e := by
  have two : (2 : ℚ) ≠ 0 := by norm_num
  have upper : k - f.fraction ≤ e := by
    have : (2 : ℚ) ^ k < 2 ^ (f.fraction + 1 + e : Int) := by
      calc (2 : ℚ) ^ k ≤ m * 2 ^ e := hl
        _ < 2 ^ (f.fraction + 1 : Int) * 2 ^ e := by
          gcongr
          rw [← Nat.cast_succ, zpow_natCast]
          exact_mod_cast hc.small
        _ = _ := by rw [← zpow_add₀ two]
    have := (zpow_lt_zpow_iff_right₀ (by norm_num : (1 : ℚ) < 2)).1 this
    omega
  -- a significand without its leading bit has the least exponent, which the maximum gives
  by_cases hm : m < 2 ^ f.fraction
  · rw [hc.normal hm] at upper ⊢
    exact max_eq_right upper
  · have : (2 : ℚ) ^ (f.fraction + e : Int) < 2 ^ (k + 1) := by
      calc (2 : ℚ) ^ (f.fraction + e : Int) = 2 ^ (f.fraction : Int) * 2 ^ e := zpow_add₀ two _ _
        _ ≤ m * 2 ^ e := by
          gcongr
          rw [zpow_natCast]
          exact_mod_cast Nat.le_of_not_lt hm
        _ < _ := hu
    have := (zpow_lt_zpow_iff_right₀ (by norm_num : (1 : ℚ) < 2)).1 this
    have := hc.low
    omega

/-- The ratio that a canonical number equals rounds to the pattern of that number. -/
theorem roundMagnitude_exact {n d : Nat} (hd : 0 < d) (hc : f.Canonical m e) (hv : (n / d : ℚ) = m * 2 ^ e) :
    f.roundMagnitude n d = f.pattern m e := by
  unfold roundMagnitude
  by_cases hn : n = 0
  · -- zero is the number with the significand zero
    have hm : m = 0 := by
      rw [hn, Nat.cast_zero, zero_div] at hv
      have := (mul_eq_zero.1 hv.symm).resolve_right (zpow_ne_zero e (by norm_num))
      exact_mod_cast this
    have he : e = f.minExponent := by
      apply hc.normal
      rw [hm]
      exact Nat.two_pow_pos _
    rw [if_pos hn, pattern, he, hm, sub_self]
    simp
  · obtain ⟨hl, hu⟩ := floorLog2_bounds (Nat.pos_of_ne_zero hn) hd
    rw [hv] at hl hu
    have he := hc.exponent_eq hl hu
    have hm := scaledRatio_exact hd hv
    rw [if_neg hn]
    simp only [he, hm, roundHalfEven_mul m (scaledRatio_pos hd (-e))]
    exact min_eq_left hc.finite.le

/-! ## Reading a pattern -/

theorem unpack_withSign {k : Nat} (hk : k < f.signBit) (negative : Bool) :
    decide (f.signBit ≤ f.withSign negative k) = negative ∧ f.withSign negative k % f.signBit = k := by
  cases negative with
  | false => exact ⟨by simpa [withSign] using hk, Nat.mod_eq_of_lt hk⟩
  | true => exact ⟨by simp [withSign], by simpa [withSign] using Nat.mod_eq_of_lt hk⟩

theorem unpack_pattern (hc : f.Canonical m e) (negative : Bool) :
    f.unpack (f.withSign negative (f.pattern m e)) = .finite negative m e := by
  have hp : 0 < 2 ^ f.fraction := Nat.two_pow_pos _
  have hf := hc.finite
  obtain ⟨hs, hk⟩ := unpack_withSign (hf.trans f.infinity_lt_signBit) negative
  simp only [unpack, hs, hk, Nat.pow_eq, if_neg hf.not_gt, if_neg hf.ne]
  by_cases hm : m < 2 ^ f.fraction
  · have he := hc.normal hm
    have hpat : f.pattern m e = m := by simp [pattern, he]
    rw [hpat, Nat.div_eq_of_lt hm, Nat.mod_eq_of_lt hm, if_pos rfl, he]
  · -- the leading bit of the significand adds one to the exponent bits
    have hpat : f.pattern m e = (m - 2 ^ f.fraction) + 2 ^ f.fraction * ((e - f.minExponent).toNat + 1) := by
      unfold pattern
      rw [Nat.mul_add, Nat.mul_comm]
      omega
    have hr : m - 2 ^ f.fraction < 2 ^ f.fraction := by
      have := hc.small
      rw [Nat.pow_succ] at this
      omega
    have hlow := hc.low
    rw [hpat, Nat.add_mul_div_left _ _ hp, Nat.add_mul_mod_self_left, Nat.div_eq_of_lt hr, Nat.mod_eq_of_lt hr,
      if_neg (by omega)]
    congr 1 <;> omega

theorem eq_withSign {bits : Nat} (hb : bits < 2 * f.signBit) :
    bits = f.withSign (decide (f.signBit ≤ bits)) (bits % f.signBit) := by
  unfold withSign
  by_cases h : f.signBit ≤ bits
  · rw [Nat.mod_eq_sub_mod h, Nat.mod_eq_of_lt (by omega), if_pos (decide_eq_true h)]
    omega
  · rw [Nat.mod_eq_of_lt (by omega), if_neg (by simpa using h)]

theorem eq_of_unpack_infinite {bits : Nat} {negative : Bool} (hb : bits < 2 * f.signBit)
    (hu : f.unpack bits = .infinite negative) : bits = f.withSign negative f.infinity := by
  have hbits := eq_withSign hb
  simp only [unpack] at hu
  split at hu
  · cases hu
  split at hu
  · rename_i h
    cases hu
    rwa [h] at hbits
  · split at hu <;> cases hu

/-- What a pattern stands for, when it stands for a number, is canonical and has that pattern. -/
theorem exists_canonical {bits : Nat} {negative : Bool} (hb : bits < 2 * f.signBit)
    (hu : f.unpack bits = .finite negative m e) :
    f.Canonical m e ∧ bits = f.withSign negative (f.pattern m e) := by
  have hp : 0 < 2 ^ f.fraction := Nat.two_pow_pos _
  have hsucc : 2 ^ (f.fraction + 1) = 2 ^ f.fraction + 2 ^ f.fraction := by rw [Nat.pow_succ]; omega
  have hdiv := Nat.div_add_mod (bits % f.signBit) (2 ^ f.fraction)
  have hr : bits % f.signBit % 2 ^ f.fraction < 2 ^ f.fraction := Nat.mod_lt _ hp
  simp only [unpack, Nat.pow_eq] at hu
  have hbits := eq_withSign hb
  split at hu
  · cases hu
  split at hu
  · cases hu
  rename_i hinf hne
  generalize bits % f.signBit = k at *
  generalize k % 2 ^ f.fraction = r at *
  generalize k / 2 ^ f.fraction = q at *
  split at hu
  -- without exponent bits the fraction is the significand
  · rename_i hz
    obtain ⟨rfl, rfl, rfl⟩ := Unpacked.finite.inj hu
    have hk : f.pattern r f.minExponent = k := by
      rw [hz, Nat.mul_zero] at hdiv
      simp only [pattern, sub_self, Int.toNat_zero]
      omega
    exact ⟨⟨le_refl _, by omega, fun _ => rfl, by omega⟩, hk.symm ▸ hbits⟩
  · rename_i hz
    obtain ⟨q, rfl⟩ := Nat.exists_eq_add_one_of_ne_zero hz
    obtain ⟨rfl, rfl, rfl⟩ := Unpacked.finite.inj hu
    have hk : f.pattern (2 ^ f.fraction + r) (f.minExponent + (q + 1 - 1 : Nat)) = k := by
      rw [Nat.mul_add, Nat.mul_comm] at hdiv
      simp only [pattern, add_sub_cancel_left, Int.toNat_natCast, Nat.add_sub_cancel]
      omega
    exact ⟨⟨by omega, by omega, fun h => absurd h (by omega), by omega⟩, hk.symm ▸ hbits⟩

/-! ## Packing -/

/-- A number packs to the pattern of the canonical number with the same value. -/
theorem pack_exact {m' : Nat} {e' : Int} (hc : f.Canonical m e) (negative : Bool)
    (hv : (m' : ℚ) * 2 ^ e' = m * 2 ^ e) : f.pack (.finite negative m' e') = f.withSign negative (f.pattern m e) := by
  have scaled := scaledRatio_eq m' 1 e'
  rw [Nat.cast_one, div_one, hv] at scaled
  simp only [pack, round]
  rw [roundMagnitude_exact (scaledRatio_pos Nat.one_pos e') hc scaled]

theorem withSign_lt {k : Nat} (hk : k < f.signBit) (negative : Bool) : f.withSign negative k < 2 * f.signBit := by
  cases negative <;> simp only [withSign, Bool.false_eq_true, if_true, if_false] <;> omega

theorem Canonical.bounds (hc : binary32.Canonical m e) : m < 2 ^ 24 ∧ -149 ≤ e ∧ e ≤ 104 := by
  have low : binary32.minExponent = -149 := by decide
  have inf : binary32.infinity = 255 * 2 ^ 23 := by decide
  refine ⟨hc.small, low ▸ hc.low, ?_⟩
  have finite := hc.finite
  rw [pattern, low, inf, show binary32.fraction = 23 from rfl] at finite
  by_contra h
  have large : ¬ m < 2 ^ 23 := by
    intro hm
    have := hc.normal hm
    omega
  have : 254 ≤ (e - -149).toNat := by omega
  omega

/-- Every number of the 32-bit format is one of the 64-bit format. -/
theorem Canonical.widen (hc : binary32.Canonical m e) :
    ∃ m' e', binary64.Canonical m' e' ∧ (m : ℚ) * 2 ^ e = m' * 2 ^ e' := by
  have low : binary64.minExponent = -1074 := by decide
  have inf : binary64.infinity = 2047 * 2 ^ 52 := by decide
  rcases Nat.eq_zero_or_pos m with rfl | hm
  · refine ⟨0, -1074, ⟨by rw [low], by decide, fun _ => low.symm, ?_⟩, by simp⟩
    rw [pattern, low, inf]
    decide
  · obtain ⟨small, he⟩ := hc.bounds
    have hl := Nat.log2_self_le hm.ne'
    have hu : m < 2 ^ (m.log2 + 1) := Nat.lt_log2_self
    have hlog : m.log2 < 24 := (Nat.log2_lt hm.ne').2 small
    -- shift the significand until it takes all the bits of the wide format
    obtain ⟨j, hj⟩ : ∃ j, m.log2 + j = 52 := ⟨52 - m.log2, by omega⟩
    have lower : 2 ^ 52 ≤ m * 2 ^ j := by
      rw [← hj, Nat.pow_add]
      exact Nat.mul_le_mul_right _ hl
    have upper : m * 2 ^ j < 2 ^ 53 := by
      rw [show 53 = m.log2 + 1 + j by omega, Nat.pow_add _ (m.log2 + 1)]
      exact Nat.mul_lt_mul_of_pos_right hu (Nat.two_pow_pos j)
    refine ⟨m * 2 ^ j, e - j, ⟨?_, upper, fun h => absurd lower (Nat.not_le_of_lt h), ?_⟩, ?_⟩
    · rw [low]
      omega
    · rw [pattern, low, inf, show binary64.fraction = 52 from rfl]
      have : (e - j - -1074).toNat + 2 ≤ 2047 := by omega
      omega
    · rw [Nat.cast_mul, Nat.cast_pow, Nat.cast_ofNat, mul_assoc, ← zpow_natCast, ← zpow_add₀ (by norm_num)]
      congr 2
      ring

/-! ## Patterns that stand for numbers -/

theorem roundMagnitude_le (n d : Nat) : f.roundMagnitude n d ≤ f.infinity := by
  unfold roundMagnitude
  split
  · exact Nat.zero_le _
  · exact Nat.min_le_right _ _

/-- Only what is no number packs to a pattern past infinity. -/
theorem pack_le {u : Unpacked} (hu : u ≠ .nan) :
    ∃ negative k, k ≤ f.infinity ∧ f.pack u = f.withSign negative k := by
  cases u with
  | nan => exact absurd rfl hu
  | infinite negative => exact ⟨negative, f.infinity, Nat.le_refl _, rfl⟩
  | finite negative m e => exact ⟨negative, _, roundMagnitude_le _ _, rfl⟩

theorem unpack_ne_nan {k : Nat} (hk : k ≤ f.infinity) (negative : Bool) : f.unpack (f.withSign negative k) ≠ .nan := by
  obtain ⟨hs, hm⟩ := unpack_withSign (hk.trans_lt f.infinity_lt_signBit) negative
  simp only [unpack, hs, hm, if_neg hk.not_gt]
  split
  · simp
  · split <;> simp

end Format

/-! ## Widening and narrowing -/

theorem Binary64.unpack_ofPattern {k : Nat} (hk : k < binary64.signBit) (negative : Bool) :
    (Binary64.ofPattern (binary64.withSign negative k)).unpack = binary64.unpack (binary64.withSign negative k) := by
  have h := binary64.withSign_lt hk negative
  have : 2 * binary64.signBit = 2 ^ 64 := by decide
  simp only [unpack, ofPattern, UInt64.toNat_ofNat']
  rw [Nat.mod_eq_of_lt (by omega)]

theorem Binary64.isNan_eq_false {x : Binary64} : x.isNan = false ↔ x.unpack ≠ .nan := by
  unfold isNan
  cases x.unpack <;> simp

theorem Binary32.isNan_eq_false {x : Binary32} : x.isNan = false ↔ x.unpack ≠ .nan := by
  unfold isNan
  cases x.unpack <;> simp

theorem Binary32.unpack_ofPattern {k : Nat} (hk : k < binary32.signBit) (negative : Bool) :
    (Binary32.ofPattern (binary32.withSign negative k)).unpack = binary32.unpack (binary32.withSign negative k) := by
  have h := binary32.withSign_lt hk negative
  have : 2 * binary32.signBit = 2 ^ 32 := by decide
  simp only [unpack, ofPattern, UInt32.toNat_ofNat']
  rw [Nat.mod_eq_of_lt (by omega)]

theorem Binary32.bits_lt (x : Binary32) : x.bits.toNat < 2 * binary32.signBit := by
  have : 2 * binary32.signBit = 2 ^ 32 := by decide
  have := x.bits.toNat_lt
  omega

theorem Binary32.ofPattern_bits {x : Binary32} {k : Nat} (h : x.bits.toNat = k) : Binary32.ofPattern k = x := by
  subst h
  simp [ofPattern]

/-- Narrowing what was widened is the number itself. -/
theorem Binary32.narrow_widen {x : Binary32} (hx : x.isNan = false) : x.widen.narrow = x := by
  unfold Binary64.narrow widen
  cases hu : x.unpack with
  | nan => simp [isNan, hu] at hx
  | infinite negative =>
    have hbits := Format.eq_of_unpack_infinite x.bits_lt hu
    rw [Format.pack, Binary64.unpack_ofPattern binary64.infinity_lt_signBit]
    have inf : binary64.unpack (binary64.withSign negative binary64.infinity) = .infinite negative := by
      cases negative <;> rfl
    rw [inf]
    exact ofPattern_bits hbits
  | finite negative m e =>
    obtain ⟨hc, hbits⟩ := Format.exists_canonical x.bits_lt hu
    obtain ⟨m', e', hc', hv⟩ := hc.widen
    rw [Format.pack_exact hc' negative hv, Binary64.unpack_ofPattern (hc'.finite.trans binary64.infinity_lt_signBit),
      Format.unpack_pattern hc', Format.pack_exact hc negative hv.symm]
    exact ofPattern_bits hbits

/-- The number nearest to an integer is one. -/
theorem Binary64.isNan_ofInt (i : Int) : (Binary64.ofInt i).isNan = false := by
  have bound := Format.roundMagnitude_le (f := binary64) i.natAbs 1
  rw [isNan_eq_false, ofInt, ofRatio, Format.round, unpack_ofPattern (bound.trans_lt binary64.infinity_lt_signBit)]
  exact Format.unpack_ne_nan bound _

/-- Narrowing a number gives a number, or an infinite one. -/
theorem Binary64.isNan_narrow {x : Binary64} (hx : x.isNan = false) : x.narrow.isNan = false := by
  obtain ⟨negative, k, hk, hpack⟩ := Format.pack_le (f := binary32) (isNan_eq_false.1 hx)
  rw [Binary32.isNan_eq_false, narrow, hpack, Binary32.unpack_ofPattern (hk.trans_lt binary32.infinity_lt_signBit)]
  exact Format.unpack_ne_nan hk negative

/-- What was widened stays as it is when it is narrowed and widened again. -/
theorem Binary32.widen_narrow_widen (x : Binary32) : x.widen.narrow.widen = x.widen := by
  cases hx : x.isNan with
  | false => rw [narrow_widen hx]
  | true =>
    have hu : x.unpack = .nan := by
      by_contra h
      exact absurd (hx.symm.trans (isNan_eq_false.2 h)) (by decide)
    -- every NaN is widened to the same pattern
    have wide : x.widen = .ofPattern binary64.quietNan := by
      rw [widen, hu]
      rfl
    rw [wide]
    decide

end StatementPool
