import Mathlib.Data.Int.Log
import Mathlib.Data.Rat.Floor
import Mathlib.Tactic.Positivity
import MaterialViewer.Number.Single

/-!
# Proofs: rounding to singles

The single that a quotient of naturals is rounded to depends on the quotient alone, because the
exponent is its binary logarithm and the mantissa a quotient again. Every finite single is what its
own value is rounded to.
-/

namespace MaterialViewer.Single

variable {num den c m : Nat} {e : Int} {x : Single} {negative : Bool}

/-! ## The mantissa -/

theorem divToEven_mul_right (hc : 0 < c) : divToEven (num * c) (den * c) = divToEven num den := by
  have hgt : 2 * (num % den * c) > den * c ↔ 2 * (num % den) > den := by
    rw [← Nat.mul_assoc]
    exact Nat.mul_lt_mul_right hc
  have heq : 2 * (num % den * c) = den * c ↔ 2 * (num % den) = den := by
    rw [← Nat.mul_assoc]
    exact Nat.mul_left_inj (Nat.ne_of_gt hc)
  unfold divToEven
  simp only [Nat.mul_div_mul_right _ _ hc, Nat.mul_mod_mul_right, hgt, heq]

theorem divToEven_mul_self (hden : 0 < den) : divToEven (m * den) den = m := by
  unfold divToEven
  rw [Nat.mul_mod_left, Nat.mul_div_cancel _ hden]
  exact if_neg (by omega)

/-! ## The exponent -/

theorem two_zpow_le_div_iff (hden : 0 < den) :
    den * Nat.pow 2 e.toNat ≤ num * Nat.pow 2 (-e).toNat ↔ (2 : ℚ) ^ e ≤ num / den := by
  have hpos : (0 : ℚ) < den := Nat.cast_pos.mpr hden
  rw [le_div_iff₀ hpos, Nat.pow_eq, Nat.pow_eq]
  obtain ⟨k, rfl | rfl⟩ := e.eq_nat_or_neg
  · rw [Int.toNat_natCast, Int.toNat_neg_natCast, pow_zero, Nat.mul_one, zpow_natCast, mul_comm]
    exact_mod_cast Iff.rfl
  · have hpow : (0 : ℚ) < 2 ^ k := by positivity
    rw [neg_neg, Int.toNat_natCast, Int.toNat_neg_natCast, pow_zero, Nat.mul_one, zpow_neg,
      zpow_natCast, inv_mul_le_iff₀ hpow, mul_comm num]
    exact_mod_cast Iff.rfl

theorem log_eq_of_le_of_lt {q : ℚ} (hle : (2 : ℚ) ^ e ≤ q) (hlt : q < 2 ^ (e + 1)) :
    Int.log 2 q = e := by
  have hpos : 0 < q := lt_of_lt_of_le (zpow_pos two_pos e) hle
  have hlog := (Int.zpow_le_iff_le_log Nat.one_lt_two hpos).mp (by exact_mod_cast hle)
  have hlog' := (Int.lt_zpow_iff_log_lt Nat.one_lt_two hpos).mp (by exact_mod_cast hlt)
  omega

/-- A quotient lies between the powers of two that the lengths of its parts say. -/
theorem div_between (hnum : 0 < num) (hden : 0 < den) :
    (2 : ℚ) ^ ((num.log2 : Int) - den.log2 - 1) ≤ num / den ∧
      (num / den : ℚ) < 2 ^ ((num.log2 : Int) - den.log2 + 1) := by
  have hnum₁ : (2 : ℚ) ^ num.log2 ≤ num := by exact_mod_cast Nat.log2_self_le (Nat.ne_of_gt hnum)
  have hnum₂ : (num : ℚ) < 2 ^ (num.log2 + 1) := by exact_mod_cast Nat.lt_log2_self
  have hden₁ : (2 : ℚ) ^ den.log2 ≤ den := by exact_mod_cast Nat.log2_self_le (Nat.ne_of_gt hden)
  have hden₂ : (den : ℚ) < 2 ^ (den.log2 + 1) := by exact_mod_cast Nat.lt_log2_self
  have hpos : (0 : ℚ) < den := Nat.cast_pos.mpr hden
  have hlow : (2 : ℚ) ^ ((num.log2 : Int) - den.log2 - 1) = 2 ^ num.log2 / 2 ^ (den.log2 + 1) := by
    rw [sub_sub, zpow_sub₀ two_ne_zero]
    norm_cast
  have hhigh : (2 : ℚ) ^ ((num.log2 : Int) - den.log2 + 1) = 2 ^ (num.log2 + 1) / 2 ^ den.log2 := by
    rw [sub_add_eq_add_sub, zpow_sub₀ two_ne_zero]
    norm_cast
  rw [hlow, hhigh]
  constructor
  · rw [div_le_div_iff₀ (by positivity) hpos]
    exact mul_le_mul hnum₁ hden₂.le hpos.le (by positivity)
  · rw [div_lt_div_iff₀ hpos (by positivity)]
    exact mul_lt_mul hnum₂ hden₁ (by positivity) (by positivity)

theorem binaryExponent_eq_log (hnum : 0 < num) (hden : 0 < den) :
    binaryExponent num den = Int.log 2 (num / den : ℚ) := by
  obtain ⟨hlow, hhigh⟩ := div_between hnum hden
  unfold binaryExponent
  dsimp only
  split
  next h => exact (log_eq_of_le_of_lt ((two_zpow_le_div_iff hden).mp h) hhigh).symm
  next h =>
    have hlt := lt_of_not_ge (mt (two_zpow_le_div_iff hden).mpr h)
    refine (log_eq_of_le_of_lt hlow ?_).symm
    rwa [sub_add_cancel]

/-! ## The single nearest to a quotient -/

theorem ofRatio_mul_right (hc : 0 < c) :
    ofRatio negative (num * c) (den * c) = ofRatio negative num den := by
  by_cases hzero : num = 0 ∨ den = 0
  · have hzero' : num * c = 0 ∨ den * c = 0 :=
      hzero.imp (fun h => by rw [h, Nat.zero_mul]) fun h => by rw [h, Nat.zero_mul]
    rw [ofRatio, if_pos hzero', ofRatio, if_pos hzero]
  · obtain ⟨hnum, hden⟩ : 0 < num ∧ 0 < den := by omega
    have hquotient : ((num * c : Nat) / (den * c : Nat) : ℚ) = num / den := by
      rw [Nat.cast_mul, Nat.cast_mul, mul_div_mul_right _ _ (by positivity)]
    have hexponent : binaryExponent (num * c) (den * c) = binaryExponent num den := by
      rw [binaryExponent_eq_log (by positivity) (by positivity), binaryExponent_eq_log hnum hden,
        hquotient]
    have hzero' : ¬ (num * c = 0 ∨ den * c = 0) := by
      rw [Nat.mul_eq_zero, Nat.mul_eq_zero]
      omega
    rw [ofRatio, if_neg hzero', ofRatio, if_neg hzero, hexponent]
    simp only [Nat.mul_right_comm _ c, divToEven_mul_right hc]

/-- Equal quotients are rounded alike. -/
theorem ofRatio_congr {num' den' : Nat} (hden : 0 < den) (hden' : 0 < den')
    (h : num * den' = num' * den) : ofRatio negative num den = ofRatio negative num' den' := by
  rw [← ofRatio_mul_right hden', h, Nat.mul_comm den den', ofRatio_mul_right hden]

/-! ## Singles are rounded to themselves -/

theorem ofMagnitude_magnitude (x : Single) : ofMagnitude x.isNegative x.magnitude = x := by
  obtain ⟨bits⟩ := x
  have hbits := bits.toNat_lt
  have hsum : (if 2 ^ 31 ≤ bits.toNat then bits.toNat % 2 ^ 31 + 2 ^ 31
      else bits.toNat % 2 ^ 31) = bits.toNat := by
    split <;> omega
  rw [ofMagnitude, isNegative, magnitude]
  simp only [decide_eq_true_eq, ge_iff_le, Nat.pow_eq, hsum, UInt32.ofNat_toNat]

theorem scale_ge (x : Single) : -149 ≤ x.scale := by
  unfold scale
  simp only [Nat.pow_eq]
  split <;> omega

theorem mantissa_lt (x : Single) : x.mantissa < 2 ^ 24 := by
  unfold mantissa
  simp only [Nat.pow_eq]
  split <;> omega

/-- The mantissa has all its bits, unless the scale is the smallest one. -/
theorem le_mantissa (x : Single) : 2 ^ 23 ≤ x.mantissa ∨ x.scale = -149 := by
  unfold mantissa scale
  split
  · exact .inr rfl
  · exact .inl (Nat.le_add_left _ _)

theorem magnitude_eq (x : Single) :
    (x.scale + 149).toNat * 2 ^ 23 + x.mantissa = x.magnitude := by
  unfold mantissa scale
  simp only [Nat.pow_eq]
  split <;> omega

/-- The exponent that is found for the value of a single is the one that it has. -/
theorem max_log_eq_scale {q : ℚ} (hpos : 0 < x.mantissa) (hq : q = x.mantissa * 2 ^ x.scale) :
    max (Int.log 2 q - 23) (-149) = x.scale := by
  have hscale : (0 : ℚ) < 2 ^ x.scale := zpow_pos two_pos _
  have hqpos : 0 < q := by
    rw [hq]
    positivity
  have hupper : Int.log 2 q < x.scale + 24 := by
    refine (Int.lt_zpow_iff_log_lt Nat.one_lt_two hqpos).mp ?_
    have hlt : (x.mantissa : ℚ) < 2 ^ 24 := by exact_mod_cast mantissa_lt x
    rw [hq, Nat.cast_ofNat, zpow_add₀ two_ne_zero, mul_comm]
    exact mul_lt_mul_of_pos_left hlt hscale
  rcases le_mantissa x with hle | hsmall
  · have hlower : x.scale + 23 ≤ Int.log 2 q := by
      refine (Int.zpow_le_iff_le_log Nat.one_lt_two hqpos).mp ?_
      have hle : (2 : ℚ) ^ 23 ≤ x.mantissa := by exact_mod_cast hle
      rw [hq, Nat.cast_ofNat, zpow_add₀ two_ne_zero, mul_comm]
      exact mul_le_mul_of_nonneg_right hle hscale.le
    have := scale_ge x
    omega
  · omega

/-- A finite single is the nearest to every quotient that has its value. -/
theorem ofRatio_exact (hx : x.isFinite) (hden : 0 < den)
    (h : num * 2 ^ (-x.scale).toNat = x.mantissa * (den * 2 ^ x.scale.toNat)) :
    ofRatio x.isNegative num den = x := by
  have hmagnitude := magnitude_eq x
  have hfinite : x.magnitude < infiniteMagnitude := of_decide_eq_true hx
  rcases Nat.eq_zero_or_pos x.mantissa with hzero | hpos
  · have hscale : x.scale = -149 := (le_mantissa x).resolve_left (by omega)
    have hnum : num = 0 := by
      rw [hzero, Nat.zero_mul] at h
      exact (Nat.mul_eq_zero.mp h).resolve_right (by positivity)
    have hmag : x.magnitude = 0 := by rw [← hmagnitude, hzero, hscale]; rfl
    rw [ofRatio, if_pos (.inl hnum), ← hmag, ofMagnitude_magnitude]
  · have hnum : 0 < num := by
      refine Nat.pos_of_ne_zero fun hnum => ?_
      rw [hnum, Nat.zero_mul] at h
      have : 0 < x.mantissa * (den * 2 ^ x.scale.toNat) := by positivity
      omega
    have hquotient : (num / den : ℚ) = x.mantissa * 2 ^ x.scale := by
      have hden' : (den : ℚ) ≠ 0 := by positivity
      have hpow : (2 : ℚ) ^ (-x.scale).toNat ≠ 0 := by positivity
      have hsplit : (2 : ℚ) ^ x.scale.toNat = 2 ^ x.scale * 2 ^ (-x.scale).toNat := by
        rw [← zpow_natCast, ← zpow_natCast, ← zpow_add₀ two_ne_zero]
        congr 1
        omega
      have hcast : (num : ℚ) * 2 ^ (-x.scale).toNat =
          x.mantissa * (den * 2 ^ x.scale.toNat) := by exact_mod_cast h
      rw [div_eq_iff hden']
      refine mul_right_cancel₀ hpow ?_
      rw [hcast, hsplit]
      ring
    have hm : divToEven (num * Nat.pow 2 (-x.scale).toNat) (den * Nat.pow 2 x.scale.toNat) =
        x.mantissa := by
      rw [Nat.pow_eq, Nat.pow_eq, h, divToEven_mul_self (by positivity)]
    rw [ofRatio, if_neg (by omega)]
    simp only [binaryExponent_eq_log hnum hden, max_log_eq_scale hpos hquotient, hm]
    rw [Nat.pow_eq, hmagnitude, Nat.min_eq_left (Nat.le_of_lt hfinite), ofMagnitude_magnitude]

end MaterialViewer.Single
