import ConfigModules.Double.Nearest
import Mathlib.Tactic.Ring
import Mathlib.Tactic.NormNum

/-! The laws of rounding that readers of numerals rest on. A quotient may be scaled, every rank is
the rounding of its own value, and the decimals that are settled by their size alone are settled as
their exact quotient would be. -/
namespace ConfigModules.Double

theorem roundQuotient_mul (num den : Nat) {c : Nat} (hc : 0 < c) :
    roundQuotient (num * c) (den * c) = roundQuotient num den := by
  have hlt : 2 * (num % den * c) < den * c ↔ 2 * (num % den) < den := by
    rw [← Nat.mul_assoc, Nat.mul_lt_mul_right hc]
  have heq : 2 * (num % den * c) = den * c ↔ 2 * (num % den) = den := by
    rw [← Nat.mul_assoc, Nat.mul_left_inj hc.ne']
  simp only [roundQuotient, Nat.mul_div_mul_right _ _ hc, Nat.mul_mod_mul_right, hlt, heq]

theorem roundQuotient_exact (n : Nat) {den : Nat} (hd : 0 < den) : roundQuotient (n * den) den = n := by
  simp [roundQuotient, Nat.mul_div_cancel n hd, Nat.mul_mod_left, hd]

theorem div_le_roundQuotient (num den : Nat) : num / den ≤ roundQuotient num den := by
  unfold roundQuotient
  dsimp only
  split
  · exact Nat.le_refl _
  · exact Nat.le_succ _

theorem nearestRank_mul (num den : Nat) {c : Nat} (hc : 0 < c) :
    nearestRank (num * c) (den * c) = nearestRank num den := by
  have hscaled : num * c * Nat.pow 2 1074 = num * Nat.pow 2 1074 * c := Nat.mul_right_comm ..
  have hunit : ∀ u, den * c * u = den * u * c := fun u => Nat.mul_right_comm ..
  simp only [nearestRank, hscaled, hunit, Nat.mul_div_mul_right _ _ hc, roundQuotient_mul _ _ hc]

theorem nearestRank_eq_of_scaled {num den n : Nat} (hd : 0 < den)
    (h : num * Nat.pow 2 1074 = n * den) :
    nearestRank num den = (n.log2 - 52) * Nat.pow 2 52 + roundQuotient n (Nat.pow 2 (n.log2 - 52)) := by
  have hunit : ∀ u, den * u = u * den := fun u => Nat.mul_comm ..
  simp only [nearestRank, h, Nat.mul_div_cancel n hd, hunit, roundQuotient_mul _ _ hd]

theorem nearestRank_zero {den : Nat} (hd : 0 < den) : nearestRank 0 den = 0 := by
  rw [nearestRank_eq_of_scaled hd ((Nat.zero_mul _).trans (Nat.zero_mul _).symm)]
  simp [roundQuotient]

/-- A rank below the normal ones is its own value in units. -/
theorem units_of_subnormal {rank : Nat} (h : rank < 2 ^ 52) : units rank = rank := by
  have hb : binade rank = 0 := Nat.div_eq_of_lt h
  have hs : significand rank = rank := if_pos h
  simp [units, hb, hs]

theorem significand_of_normal {rank : Nat} (h : 2 ^ 52 ≤ rank) :
    significand rank = 2 ^ 52 + rank % 2 ^ 52 := if_neg (Nat.not_lt.mpr h)

/-- Binades and significands count ranks without a gap. -/
theorem binade_add_significand {rank : Nat} (h : 2 ^ 52 ≤ rank) :
    (binade rank - 1) * 2 ^ 52 + significand rank = rank := by
  rw [significand_of_normal h]
  have hb : binade rank = rank / 2 ^ 52 := rfl
  omega

theorem log2_units_of_normal {rank : Nat} (h : 2 ^ 52 ≤ rank) :
    (units rank).log2 = 52 + (binade rank - 1) := by
  have hs := significand_of_normal h
  have hmod : rank % 2 ^ 52 < 2 ^ 52 := Nat.mod_lt _ (by decide)
  have hpos : 0 < 2 ^ (binade rank - 1) := Nat.two_pow_pos _
  have hu : units rank = significand rank * 2 ^ (binade rank - 1) := rfl
  have hne : units rank ≠ 0 := by
    rw [hu]
    exact (Nat.mul_pos (by omega) hpos).ne'
  rw [Nat.log2_eq_iff hne, hu]
  constructor
  · rw [Nat.pow_add]
    exact Nat.mul_le_mul_right _ (by omega)
  · rw [show 52 + (binade rank - 1) + 1 = 53 + (binade rank - 1) by omega, Nat.pow_add]
    exact Nat.mul_lt_mul_of_pos_right (by omega) hpos

/-- A rank is what its own value rounds to. -/
theorem nearestRank_units {num den rank : Nat} (hd : 0 < den)
    (h : num * Nat.pow 2 1074 = units rank * den) : nearestRank num den = rank := by
  rw [nearestRank_eq_of_scaled hd h]
  by_cases hs : rank < 2 ^ 52
  · have hlog : rank.log2 - 52 = 0 := by
      by_cases hz : rank = 0
      · simp [hz]
      · have : rank.log2 < 52 := (Nat.log2_lt hz).mpr hs
        omega
    rw [units_of_subnormal hs, hlog]
    simpa using roundQuotient_exact rank Nat.one_pos
  · have hn : 2 ^ 52 ≤ rank := Nat.not_lt.mp hs
    rw [log2_units_of_normal hn, Nat.add_sub_cancel_left]
    exact (congrArg _ (roundQuotient_exact (significand rank) (Nat.two_pow_pos _))).trans
      (binade_add_significand hn)

theorem le_log2_mul_pow {num a b : Nat} (h : 2 ^ a ≤ num) : a + b ≤ (num * Nat.pow 2 b).log2 := by
  have hbig : 2 ^ (a + b) ≤ num * 2 ^ b := by
    rw [Nat.pow_add]
    exact Nat.mul_le_mul_right _ h
  exact (Nat.le_log2 (Nat.lt_of_lt_of_le (Nat.two_pow_pos _) hbig).ne').mpr hbig

/-- Cutting to 53 bits leaves the leading one, which counts as a binade. -/
theorem le_rank_of_log2 {n s : Nat} (h : 52 + s ≤ n.log2) :
    (s + 1) * Nat.pow 2 52 ≤
      (n.log2 - 52) * Nat.pow 2 52 + roundQuotient n (Nat.pow 2 (n.log2 - 52)) := by
  have hne : n ≠ 0 := by
    rintro rfl
    simp at h
  have hround : 2 ^ 52 ≤ roundQuotient n (2 ^ (n.log2 - 52)) := by
    refine Nat.le_trans ?_ (div_le_roundQuotient _ _)
    rw [Nat.le_div_iff_mul_le (Nat.two_pow_pos _), ← Nat.pow_add, Nat.add_sub_cancel' (by omega)]
    exact Nat.log2_self_le hne
  rw [Nat.succ_mul]
  exact Nat.add_le_add (Nat.mul_le_mul_right _ (by omega)) hround

/-- What reaches 2^1024 rounds past the last finite rank. -/
theorem finiteCount_le_nearestRank {num : Nat} (h : 2 ^ 1024 ≤ num) :
    finiteCount ≤ nearestRank num 1 := by
  rw [nearestRank_eq_of_scaled Nat.one_pos (Nat.mul_one _).symm]
  exact le_rank_of_log2
    (Nat.le_trans (by decide : 52 + 2046 ≤ 1024 + 1074) (le_log2_mul_pow (b := 1074) h))

/-- What lies below half the least unit rounds to zero. -/
theorem nearestRank_eq_zero {num den : Nat} (h : 2 * (num * Nat.pow 2 1074) < den) :
    nearestRank num den = 0 := by
  unfold nearestRank
  generalize num * Nat.pow 2 1074 = n at h ⊢
  have hlt : n < den := by omega
  simp [Nat.div_eq_of_lt hlt, roundQuotient, Nat.mod_eq_of_lt hlt, h]

theorem ofQuotient_zero (negative : Bool) {den : Nat} (hd : 0 < den) :
    ofQuotient negative 0 den = signedZero negative := by
  rw [ofQuotient, nearestRank_zero hd]
  rfl

theorem ofQuotient_of_huge (negative : Bool) {num : Nat} (h : 2 ^ 1024 ≤ num) :
    ofQuotient negative num 1 = .infinite negative :=
  dif_neg (Nat.not_lt.mpr (finiteCount_le_nearestRank h))

theorem ofQuotient_of_tiny (negative : Bool) {num den : Nat} (h : 2 * (num * Nat.pow 2 1074) < den) :
    ofQuotient negative num den = signedZero negative := by
  rw [ofQuotient, nearestRank_eq_zero h]
  rfl

theorem two_pow_le_ten_pow {j k : Nat} (h : j ≤ 3 * k) : 2 ^ j ≤ 10 ^ k :=
  calc 2 ^ j ≤ 2 ^ (3 * k) := Nat.pow_le_pow_right (by decide) h
    _ = 8 ^ k := Nat.pow_mul 2 3 k
    _ ≤ 10 ^ k := Nat.pow_le_pow_left (by decide) k

theorem huge_of_exponent {digits k : Nat} (hd : digits ≠ 0) (hk : 400 < k) :
    2 ^ 1024 ≤ digits * 10 ^ k :=
  calc 2 ^ 1024 ≤ 10 ^ k := two_pow_le_ten_pow (by omega)
    _ ≤ digits * 10 ^ k := Nat.le_mul_of_pos_left _ (Nat.pos_of_ne_zero hd)

theorem tiny_of_exponent {digits j k : Nat} (hk : digits.log2 + j + 2 ≤ 3 * k) :
    2 * (digits * Nat.pow 2 j) < 10 ^ k :=
  calc 2 * (digits * 2 ^ j) < 2 * (2 ^ (digits.log2 + 1) * 2 ^ j) :=
        Nat.mul_lt_mul_of_pos_left
          (Nat.mul_lt_mul_of_pos_right Nat.lt_log2_self (Nat.two_pow_pos _)) (by decide)
    _ = 2 ^ (digits.log2 + j + 2) := by ring
    _ ≤ 10 ^ k := two_pow_le_ten_pow hk

/-- The double of a decimal is that of its exact quotient, also where the size alone decides. -/
theorem ofDecimal_eq_ofQuotient (negative : Bool) (digits : Nat) (exponent : Int) :
    ofDecimal negative digits exponent =
      ofQuotient negative (digits * 10 ^ exponent.toNat) (10 ^ (-exponent).toNat) := by
  unfold ofDecimal
  split_ifs with hzero hhuge htiny hpos
  · rw [hzero, Nat.zero_mul, ofQuotient_zero negative (Nat.pow_pos (by decide))]
  · have hneg : (-exponent).toNat = 0 := by omega
    rw [hneg, Nat.pow_zero, ofQuotient_of_huge negative (huge_of_exponent hzero (by omega))]
  · have hnat : exponent.toNat = 0 := by omega
    rw [hnat, Nat.pow_zero, Nat.mul_one,
      ofQuotient_of_tiny negative (tiny_of_exponent (j := 1074) (by omega))]
  · have hneg : (-exponent).toNat = 0 := by omega
    rw [hneg]
    rfl
  · have hnat : exponent.toNat = 0 := by omega
    rw [hnat, Nat.pow_zero, Nat.mul_one]
    rfl

end ConfigModules.Double
