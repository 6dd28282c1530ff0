import ConfigModules.Proofs.Double.Shortest
import ConfigModules.Proofs.Double.Value

/-! The shortest decimal of a magnitude is the shortest one there is. The search stops at the coarsest grid of
powers of ten that has a decimal for the rank, since a grid has one only if a neighbour of the exact value is
one. A decimal on a finer grid is written with more digits, but for the numbers of one digit, where it
is not nearer. -/
namespace ConfigModules

namespace Decimal

/-- The exact value of a decimal. -/
def value (x : Decimal) : ℚ := x.digits * 10 ^ x.exponent

/-- With how many digits a decimal is written. -/
def length (x : Decimal) : ℕ := (Nat.toDigits 10 x.digits).length

/-- A decimal for a rank with the fewest digits, and with as many digits none is nearer. -/
structure IsShortest (x : Decimal) (rank : ℕ) : Prop where
  rounds : Double.RoundsTo x.value rank
  fewest : ∀ y : Decimal, Double.RoundsTo y.value rank → x.length ≤ y.length
  nearest : ∀ y : Decimal, Double.RoundsTo y.value rank → y.length = x.length →
    |x.value - Double.value rank| ≤ |y.value - Double.value rank|

theorem value_mono {m n : ℕ} (h : m ≤ n) (exponent : ℤ) :
    value ⟨m, exponent⟩ ≤ value ⟨n, exponent⟩ := by
  have hmn : (m : ℚ) ≤ n := by exact_mod_cast h
  exact mul_le_mul_of_nonneg_right hmn (by positivity)

theorem value_ten_mul (m : ℕ) (exponent : ℤ) : value ⟨10 * m, exponent⟩ = value ⟨m, exponent + 1⟩ := by
  rw [value, value, zpow_add_one₀ (by norm_num)]
  push_cast
  ring

theorem value_mul_pow (m k : ℕ) (exponent : ℤ) :
    value ⟨m * 10 ^ k, exponent⟩ = value ⟨m, exponent + k⟩ := by
  rw [value, value, zpow_add₀ (by norm_num), zpow_natCast]
  push_cast
  ring

theorem one_le_length (x : Decimal) : 1 ≤ x.length := Nat.length_toDigits_pos

theorem length_le_iff {x : Decimal} {k : ℕ} (hk : 0 < k) : x.length ≤ k ↔ x.digits < 10 ^ k :=
  Nat.length_toDigits_le_iff (by decide) hk

theorem digits_lt_pow (x : Decimal) : x.digits < 10 ^ x.length := (length_le_iff x.one_le_length).mp le_rfl

theorem pow_le_digits {x : Decimal} (hx : x.digits ≠ 0) : 10 ^ (x.length - 1) ≤ x.digits := by
  rcases x.one_le_length.eq_or_lt with hone | hmore
  · rw [← hone]
    exact Nat.one_le_iff_ne_zero.mpr hx
  · refine Nat.le_of_not_lt fun hlt => ?_
    have := (length_le_iff (by omega)).mpr hlt
    omega

/-- On a finer grid, as many digits do not reach the leading power of ten. -/
theorem value_le_of_finer {x y : Decimal} (hexponent : y.exponent < x.exponent)
    (hlength : y.length ≤ x.length) : y.value ≤ value ⟨10 ^ (x.length - 1), x.exponent⟩ := by
  obtain ⟨t, ht⟩ : ∃ t : ℕ, x.exponent = y.exponent + (t + 1 : ℕ) :=
    ⟨(x.exponent - y.exponent - 1).toNat, by omega⟩
  rw [ht, ← value_mul_pow, ← Nat.pow_add]
  refine value_mono (y.digits_lt_pow.le.trans (Nat.pow_le_pow_right (by decide) ?_)) y.exponent
  omega

/-- One digit on a finer grid is at most nine tenths of a power of ten. -/
theorem ten_mul_value_le_of_finer {y : Decimal} {exponent : ℤ} (hexponent : y.exponent < exponent)
    (hlength : y.length = 1) : 10 * y.value ≤ 9 * value ⟨1, exponent⟩ := by
  have hdigits : (y.digits : ℚ) ≤ 9 := by
    exact_mod_cast Nat.le_of_lt_succ ((length_le_iff (by decide)).mp hlength.le)
  have hpower : (10 : ℚ) ^ (y.exponent + 1) ≤ 10 ^ exponent := zpow_le_zpow_right₀ (by norm_num) hexponent
  rw [zpow_add_one₀ (by norm_num)] at hpower
  have hpos : (0 : ℚ) < 10 ^ y.exponent := by positivity
  rw [value, value]
  push_cast
  nlinarith

theorem value_injective {m n : ℕ} {exponent : ℤ} (h : value ⟨m, exponent⟩ = value ⟨n, exponent⟩) :
    m = n := by
  have hmn := mul_right_cancel₀ (by positivity) h
  exact_mod_cast hmn

end Decimal

namespace Double

open Decimal (IsShortest)

/-! ## The search -/

variable {tie : Tie} {rank : ℕ}

/-- A decimal for a rank, on the coarsest grid of powers of ten that has one, and the nearest on it. -/
structure OnCoarsestGrid (x : Decimal) (rank : ℕ) : Prop where
  rounds : RoundsTo x.value rank
  nearest : ∀ j, RoundsTo (Decimal.value ⟨j, x.exponent⟩) rank →
    |x.value - value rank| ≤ |Decimal.value ⟨j, x.exponent⟩ - value rank|
  coarsest : ∀ j, ¬RoundsTo (Decimal.value ⟨j, x.exponent + 1⟩) rank

/-- The exponent of a grid that is counted from the finest. -/
def gridExponent (rank k : ℕ) : ℤ := k - (places rank : ℤ)

theorem value_grid (rank k j : ℕ) :
    Decimal.value ⟨j, gridExponent rank k⟩ = (j * 10 ^ k : ℕ) / (10 ^ places rank : ℕ) := by
  rw [Decimal.value, gridExponent, zpow_sub₀ (by norm_num), zpow_natCast, zpow_natCast]
  push_cast
  ring

theorem value_eq_exactDigits (rank : ℕ) : value rank = (exactDigits rank : ℕ) / (10 ^ places rank : ℕ) := by
  have hscaled := congrArg (fun n : ℕ => (n : ℚ)) (exactDigits_scaled rank)
  simp only [Nat.pow_eq, Nat.cast_mul, Nat.cast_pow, Nat.cast_ofNat] at hscaled
  rw [value, div_eq_div_iff (by positivity) (by positivity)]
  rw [Nat.cast_pow, Nat.cast_ofNat]
  exact hscaled.symm

theorem readsBack_iff {j k : ℕ} :
    readsBack rank j k = true ↔ RoundsTo (Decimal.value ⟨j, gridExponent rank k⟩) rank := by
  rw [value_grid, ← nearestRank_eq_iff (Nat.pow_pos (by decide)), readsBack, beq_iff_eq]
  rfl

theorem ne_zero_of_roundsTo {x : Decimal} (hrank : rank ≠ 0) (h : RoundsTo x.value rank) : x.digits ≠ 0 := by
  intro hzero
  have hvalue : x.value = value 0 := by
    simp [Decimal.value, hzero, value, units_of_subnormal]
  rw [hvalue] at h
  exact hrank (h.unique (.value_self 0))

section

variable {k : ℕ}

theorem low_le_value (rank k : ℕ) :
    Decimal.value ⟨exactDigits rank / 10 ^ k, gridExponent rank k⟩ ≤ value rank := by
  rw [value_grid, value_eq_exactDigits]
  have hle : ((exactDigits rank / 10 ^ k * 10 ^ k : ℕ) : ℚ) ≤ exactDigits rank := by
    exact_mod_cast Nat.div_mul_le_self _ _
  exact div_le_div_of_nonneg_right hle (by positivity)

theorem value_le_high (rank k : ℕ) :
    value rank ≤ Decimal.value ⟨exactDigits rank / 10 ^ k + 1, gridExponent rank k⟩ := by
  rw [value_grid, value_eq_exactDigits]
  have hle : (exactDigits rank : ℚ) ≤ ((exactDigits rank / 10 ^ k + 1) * 10 ^ k : ℕ) := by
    rw [Nat.mul_comm]
    exact_mod_cast (Nat.lt_mul_div_succ _ (Nat.pow_pos (by decide))).le
  exact div_le_div_of_nonneg_right hle (by positivity)

/-- Of a grid with a decimal for the rank, one of the neighbours of the value is for the rank. -/
theorem neighbour_of_grid {j : ℕ} (h : RoundsTo (Decimal.value ⟨j, gridExponent rank k⟩) rank) :
    (j ≤ exactDigits rank / 10 ^ k ∧
      RoundsTo (Decimal.value ⟨exactDigits rank / 10 ^ k, gridExponent rank k⟩) rank) ∨
    (exactDigits rank / 10 ^ k + 1 ≤ j ∧
      RoundsTo (Decimal.value ⟨exactDigits rank / 10 ^ k + 1, gridExponent rank k⟩) rank) := by
  rcases Nat.lt_or_ge (exactDigits rank / 10 ^ k) j with hlt | hle
  · exact .inr ⟨hlt, (RoundsTo.value_self rank).between h (value_le_high rank k) (Decimal.value_mono hlt _)⟩
  · exact .inl ⟨hle, h.between (.value_self rank) (Decimal.value_mono hle _) (low_le_value rank k)⟩

/-- A candidate is the nearest on its grid if neither neighbour of the value is nearer. -/
theorem nearest_of_neighbours {m j : ℕ}
    (hlow : RoundsTo (Decimal.value ⟨exactDigits rank / 10 ^ k, gridExponent rank k⟩) rank →
      |Decimal.value ⟨m, gridExponent rank k⟩ - value rank| ≤
        |Decimal.value ⟨exactDigits rank / 10 ^ k, gridExponent rank k⟩ - value rank|)
    (hhigh : RoundsTo (Decimal.value ⟨exactDigits rank / 10 ^ k + 1, gridExponent rank k⟩) rank →
      |Decimal.value ⟨m, gridExponent rank k⟩ - value rank| ≤
        |Decimal.value ⟨exactDigits rank / 10 ^ k + 1, gridExponent rank k⟩ - value rank|)
    (h : RoundsTo (Decimal.value ⟨j, gridExponent rank k⟩) rank) :
    |Decimal.value ⟨m, gridExponent rank k⟩ - value rank| ≤
      |Decimal.value ⟨j, gridExponent rank k⟩ - value rank| := by
  have hbelow := low_le_value rank k
  have habove := value_le_high rank k
  rcases neighbour_of_grid h with ⟨hj, hreads⟩ | ⟨hj, hreads⟩
  · refine (hlow hreads).trans ?_
    have hmono := Decimal.value_mono hj (gridExponent rank k)
    rw [abs_sub_comm, abs_sub_comm _ (value rank), abs_of_nonneg (by linarith), abs_of_nonneg (by linarith)]
    linarith
  · refine (hhigh hreads).trans ?_
    have hmono := Decimal.value_mono hj (gridExponent rank k)
    rw [abs_of_nonneg (by linarith), abs_of_nonneg (by linarith)]
    linarith

/-- What the search finds on a grid: nothing if neither neighbour reads back, and else one of them that is not
farther than the other, if that one reads back too. -/
theorem neighbour?_spec (tie : Tie) (rank k : ℕ) :
    (neighbour? tie rank k = none ∧ readsBack rank (exactDigits rank / 10 ^ k) k = false ∧
      readsBack rank (exactDigits rank / 10 ^ k + 1) k = false) ∨
    (neighbour? tie rank k = some (exactDigits rank / 10 ^ k) ∧
      (readsBack rank (exactDigits rank / 10 ^ k + 1) k = true →
        2 * (exactDigits rank % 10 ^ k) ≤ 10 ^ k)) ∨
    (neighbour? tie rank k = some (exactDigits rank / 10 ^ k + 1) ∧
      (readsBack rank (exactDigits rank / 10 ^ k) k = true → 10 ^ k ≤ 2 * (exactDigits rank % 10 ^ k))) := by
  unfold neighbour?
  simp only [Nat.pow_eq]
  by_cases hexact : exactDigits rank % 10 ^ k = 0
  · right
    left
    simp [hexact]
  rw [if_neg hexact]
  cases readsBack rank (exactDigits rank / 10 ^ k) k <;>
    cases readsBack rank (exactDigits rank / 10 ^ k + 1) k
  · simp
  · simp
  · simp
  · split_ifs
    · right
      left
      simp
      omega
    all_goals
      simp
      omega

/-- The distances of both neighbours, in units of the finest grid. -/
theorem distance_low (rank k : ℕ) :
    |Decimal.value ⟨exactDigits rank / 10 ^ k, gridExponent rank k⟩ - value rank| =
      (exactDigits rank % 10 ^ k : ℕ) / (10 ^ places rank : ℕ) := by
  have hdiv : ((exactDigits rank / 10 ^ k * 10 ^ k : ℕ) : ℚ) + (exactDigits rank % 10 ^ k : ℕ) =
      exactDigits rank := by
    exact_mod_cast Nat.div_add_mod' _ _
  rw [abs_sub_comm, abs_of_nonneg (sub_nonneg.mpr (low_le_value rank k)), value_grid, value_eq_exactDigits,
    ← hdiv, ← sub_div, add_sub_cancel_left]

theorem distance_high (rank k : ℕ) :
    |Decimal.value ⟨exactDigits rank / 10 ^ k + 1, gridExponent rank k⟩ - value rank| =
      ((10 ^ k : ℕ) - (exactDigits rank % 10 ^ k : ℕ)) / (10 ^ places rank : ℕ) := by
  have hdiv : ((exactDigits rank / 10 ^ k * 10 ^ k : ℕ) : ℚ) + (exactDigits rank % 10 ^ k : ℕ) =
      exactDigits rank := by
    exact_mod_cast Nat.div_add_mod' _ _
  rw [abs_of_nonneg (sub_nonneg.mpr (value_le_high rank k)), value_grid, value_eq_exactDigits, ← hdiv,
    ← sub_div]
  push_cast
  ring

theorem not_roundsTo_of_neighbour?_none (h : neighbour? tie rank k = none) (j : ℕ) :
    ¬RoundsTo (Decimal.value ⟨j, gridExponent rank k⟩) rank := by
  intro hj
  obtain ⟨_, hlow, hhigh⟩ | ⟨hsome, _⟩ | ⟨hsome, _⟩ := neighbour?_spec tie rank k
  · rcases neighbour_of_grid hj with ⟨_, hreads⟩ | ⟨_, hreads⟩
    · exact Bool.false_ne_true (hlow.symm.trans (readsBack_iff.mpr hreads))
    · exact Bool.false_ne_true (hhigh.symm.trans (readsBack_iff.mpr hreads))
  · cases h.symm.trans hsome
  · cases h.symm.trans hsome

theorem nearest_of_neighbour?_some {m : ℕ} (h : neighbour? tie rank k = some m) {j : ℕ}
    (hj : RoundsTo (Decimal.value ⟨j, gridExponent rank k⟩) rank) :
    |Decimal.value ⟨m, gridExponent rank k⟩ - value rank| ≤
      |Decimal.value ⟨j, gridExponent rank k⟩ - value rank| := by
  obtain ⟨hnone, _⟩ | ⟨hsome, hnearer⟩ | ⟨hsome, hnearer⟩ := neighbour?_spec tie rank k
  · cases h.symm.trans hnone
  · obtain rfl := Option.some.inj (h.symm.trans hsome)
    refine nearest_of_neighbours (fun _ => le_rfl) (fun hhigh => ?_) hj
    have hhalf : 2 * ((exactDigits rank % 10 ^ k : ℕ) : ℚ) ≤ (10 ^ k : ℕ) := by
      exact_mod_cast hnearer (readsBack_iff.mpr hhigh)
    rw [distance_low, distance_high]
    exact div_le_div_of_nonneg_right (by linarith) (by positivity)
  · obtain rfl := Option.some.inj (h.symm.trans hsome)
    refine nearest_of_neighbours (fun hlow => ?_) (fun _ => le_rfl) hj
    have hhalf : ((10 ^ k : ℕ) : ℚ) ≤ 2 * (exactDigits rank % 10 ^ k : ℕ) := by
      exact_mod_cast hnearer (readsBack_iff.mpr hlow)
    rw [distance_low, distance_high]
    exact div_le_div_of_nonneg_right (by linarith) (by positivity)

end

/-- The search keeps to its way down: what is coarser has nothing for the rank. -/
theorem onCoarsestGrid_shortestFrom (k : ℕ)
    (h : ∀ j, ¬RoundsTo (Decimal.value ⟨j, gridExponent rank (k + 1)⟩) rank) :
    OnCoarsestGrid (shortestFrom tie rank k) rank := by
  have hnext : ∀ k, gridExponent rank (k + 1) = gridExponent rank k + 1 := by
    intro k
    rw [gridExponent, gridExponent]
    omega
  induction k with
  | zero =>
    have hexponent : -(places rank : ℤ) = gridExponent rank 0 := by simp [gridExponent]
    have hvalue : Decimal.value ⟨exactDigits rank, gridExponent rank 0⟩ = value rank := by
      rw [value_grid, value_eq_exactDigits, pow_zero, Nat.mul_one]
    rw [shortestFrom, hexponent]
    refine ⟨?_, fun j _ => ?_, fun j => hnext 0 ▸ h j⟩
    · rw [hvalue]
      exact .value_self rank
    · simp [hvalue]
  | succ k ih =>
    rw [shortestFrom]
    cases hm : neighbour? tie rank (k + 1) with
    | none => exact ih (not_roundsTo_of_neighbour?_none hm)
    | some m =>
      refine ⟨?_, fun j hj => nearest_of_neighbour?_some hm hj, fun j => hnext (k + 1) ▸ h j⟩
      exact readsBack_iff.mp (readsBack_of_neighbour hm)

/-- The search begins above twice the value, since two is less than the power 30103 / 100000 of ten. -/
theorem two_mul_lt_pow (n : ℕ) : 2 * n < 10 ^ (n.log2 * 30103 / 100000 + 2) := by
  obtain ⟨e, he⟩ : ∃ e, e = n.log2 * 30103 / 100000 := ⟨_, rfl⟩
  have hpower : 2 ^ n.log2 < 10 ^ (e + 1) := by
    refine lt_of_pow_lt_pow_left₀ 100000 (Nat.zero_le _) ?_
    calc (2 ^ n.log2) ^ 100000 = (2 ^ 100000) ^ n.log2 := by rw [← pow_mul, ← pow_mul, Nat.mul_comm]
      _ ≤ (10 ^ 30103) ^ n.log2 := Nat.pow_le_pow_left (by decide +kernel) _
      _ = 10 ^ (30103 * n.log2) := by rw [← pow_mul]
      _ < 10 ^ ((e + 1) * 100000) := Nat.pow_lt_pow_right (by decide) (by omega)
      _ = (10 ^ (e + 1)) ^ 100000 := by rw [pow_mul]
  have hn : n < 2 * 2 ^ n.log2 := by
    rw [← Nat.pow_succ']
    exact Nat.lt_log2_self
  rw [← he, Nat.pow_succ]
  omega

/-- The next rank is not far above a rank. -/
theorem mul_value_succ_le {c : ℕ} (hc : c ≤ 2 ^ 52) (hrank : c ≤ rank) :
    c * value (rank + 1) ≤ (c + 1) * value rank := by
  have hgap : c * units (rank + 1) ≤ (c + 1) * units rank := by
    rw [units_succ, Nat.mul_add, Nat.add_one_mul]
    exact Nat.add_le_add_left (mul_gap_le hc hrank) _
  have hgap : (c * units (rank + 1) : ℚ) ≤ (c + 1) * units rank := by exact_mod_cast hgap
  rw [value, value, ← mul_div_assoc, ← mul_div_assoc]
  exact div_le_div_of_nonneg_right hgap (by positivity)

/-- No number on a grid above the value rounds to it. -/
theorem not_roundsTo_of_coarse (hrank : rank ≠ 0) {k : ℕ} (hk : 2 * exactDigits rank < 10 ^ k) (j : ℕ) :
    ¬RoundsTo (Decimal.value ⟨j, gridExponent rank k⟩) rank := by
  intro h
  have hj : 1 ≤ j := Nat.one_le_iff_ne_zero.mpr (ne_zero_of_roundsTo hrank h)
  obtain ⟨_, hmid, _⟩ := roundsTo_iff_neighbours.mp h
  have hmono := Decimal.value_mono hj (gridExponent rank k)
  have hbig : 2 * value rank < Decimal.value ⟨1, gridExponent rank k⟩ := by
    rw [value_grid, value_eq_exactDigits, ← mul_div_assoc]
    refine div_lt_div_of_pos_right ?_ (by positivity)
    rw [Nat.one_mul]
    exact_mod_cast hk
  have hnext := mul_value_succ_le (by decide) (Nat.one_le_iff_ne_zero.mpr hrank)
  have hpos := value_nonneg rank
  norm_num at hnext
  linarith

theorem onCoarsestGrid_shortest (tie : Tie) (hrank : rank ≠ 0) :
    OnCoarsestGrid (shortest tie rank) rank := by
  refine onCoarsestGrid_shortestFrom _ (not_roundsTo_of_coarse hrank ?_)
  exact (two_mul_lt_pow _).trans (Nat.pow_lt_pow_right (by decide) (Nat.lt_succ_self _))

/-! ## Decimals on other grids -/

namespace OnCoarsestGrid

variable {x y : Decimal} (h : OnCoarsestGrid x rank)
include h

theorem exponent_le (hy : RoundsTo y.value rank) : y.exponent ≤ x.exponent := by
  refine Int.not_lt.mp fun hlt => h.coarsest (y.digits * 10 ^ (y.exponent - x.exponent - 1).toNat) ?_
  rwa [Decimal.value_mul_pow, show x.exponent + 1 + (y.exponent - x.exponent - 1).toNat = y.exponent by omega]

theorem digits_ne_zero (hrank : rank ≠ 0) : x.digits ≠ 0 := ne_zero_of_roundsTo hrank h.rounds

/-- Only a decimal of one digit has another one below its leading power of ten. -/
theorem length_eq_one (hrank : rank ≠ 0) (hy : RoundsTo y.value rank)
    (hle : y.value ≤ Decimal.value ⟨10 ^ (x.length - 1), x.exponent⟩) : x.length = 1 := by
  have hlead := hy.between h.rounds hle
    (Decimal.value_mono (Decimal.pow_le_digits (h.digits_ne_zero hrank)) x.exponent)
  by_contra hlength
  obtain ⟨k, hk⟩ : ∃ k, x.length - 1 = k + 1 := ⟨x.length - 2, by have := x.one_le_length; omega⟩
  rw [hk, Nat.pow_succ', Decimal.value_ten_mul] at hlead
  exact h.coarsest _ hlead

theorem length_le (hrank : rank ≠ 0) (hy : RoundsTo y.value rank) : x.length ≤ y.length := by
  by_contra hless
  have hone := y.one_le_length
  have hlow : y.value ≤ Decimal.value ⟨10 ^ (x.length - 1), x.exponent⟩ := by
    rcases (h.exponent_le hy).lt_or_eq with hfiner | hsame
    · exact Decimal.value_le_of_finer hfiner (by omega)
    · rw [← hsame]
      exact Decimal.value_mono
        (y.digits_lt_pow.le.trans (Nat.pow_le_pow_right (by decide) (by omega))) y.exponent
  have := h.length_eq_one hrank hy hlow
  omega

/-- A decimal of one digit that is not far above the value is as near as any of one digit on a finer grid. -/
theorem nearest_of_finer (hrank : rank ≠ 0) (hnear : x.digits = 1 → 19 * x.value ≤ 20 * value rank)
    (hy : RoundsTo y.value rank) (hlength : y.length = x.length) (hfiner : y.exponent < x.exponent) :
    |x.value - value rank| ≤ |y.value - value rank| := by
  have hlead := Decimal.value_le_of_finer hfiner hlength.le
  have hone := h.length_eq_one hrank hy hlead
  rw [hone, Nat.sub_self, pow_zero] at hlead
  have hdigits := Nat.one_le_iff_ne_zero.mpr (h.digits_ne_zero hrank)
  have hx := Decimal.value_mono hdigits x.exponent
  -- The power of ten between both is on the grid, so it is not nearer than `x`.
  have hpower := h.nearest 1 (hy.between h.rounds hlead hx)
  rcases le_total (Decimal.value ⟨1, x.exponent⟩) (value rank) with hbelow | habove
  · rw [abs_sub_comm, abs_sub_comm (Decimal.value _), abs_of_nonneg (sub_nonneg.mpr hbelow)] at hpower
    rw [abs_sub_comm, abs_sub_comm y.value, abs_of_nonneg (by linarith : 0 ≤ value rank - y.value)]
    linarith
  · rw [abs_of_nonneg (by linarith), abs_of_nonneg (by linarith)] at hpower
    have hsame : x.value = Decimal.value ⟨1, x.exponent⟩ := le_antisymm (by linarith) hx
    have htenth := Decimal.ten_mul_value_le_of_finer hfiner (hlength.trans hone)
    have hclose := hnear (Decimal.value_injective hsame)
    rw [abs_of_nonneg (by linarith), abs_sub_comm, abs_of_nonneg (by linarith)]
    linarith

theorem isShortest (hrank : rank ≠ 0) (hnear : x.digits = 1 → 19 * x.value ≤ 20 * value rank) :
    x.IsShortest rank := by
  refine ⟨h.rounds, fun y hy => h.length_le hrank hy, fun y hy hlength => ?_⟩
  rcases (h.exponent_le hy).lt_or_eq with hfiner | hsame
  · exact h.nearest_of_finer hrank hnear hy hlength hfiner
  · have hgrid : y = ⟨y.digits, x.exponent⟩ := by rw [← hsame]
    rw [hgrid] at hy ⊢
    exact h.nearest y.digits hy

end OnCoarsestGrid

/-- Of the least ranks, one alone has a power of ten for its shortest decimal. -/
theorem power_of_small : ∀ tie ∈ [Tie.up, Tie.even], ∀ rank < 10, (shortest tie rank).digits = 1 →
    rank = 2 ∧ (shortest tie rank).exponent = -323 := by
  decide +kernel

theorem power_near_two : (19 : ℚ) * 10 ^ (-323 : ℤ) ≤ 20 * (2 / 2 ^ 1074) := by
  have hunits : ((19 * 2 ^ 1074 : ℕ) : ℚ) ≤ (40 * 10 ^ 323 : ℕ) := Nat.cast_le.mpr (by decide +kernel)
  rw [Nat.cast_mul, Nat.cast_mul, Nat.cast_pow, Nat.cast_pow] at hunits
  rw [show (-323 : ℤ) = -(323 : ℕ) from rfl, zpow_neg, zpow_natCast, ← div_eq_mul_inv, ← mul_div_assoc,
    div_le_div_iff₀ (by positivity) (by positivity)]
  norm_num at hunits ⊢
  exact hunits

/-- A shortest decimal that is a power of ten is not far above the value. -/
theorem power_near (tie : Tie) (rank : ℕ) (h : RoundsTo (shortest tie rank).value rank)
    (hone : (shortest tie rank).digits = 1) : 19 * (shortest tie rank).value ≤ 20 * value rank := by
  rcases Nat.lt_or_ge rank 10 with hsmall | hlarge
  · obtain ⟨rfl, hexponent⟩ := power_of_small tie (by cases tie <;> simp) rank hsmall hone
    rw [Decimal.value, hone, hexponent, value, units_of_subnormal (by decide), Nat.cast_one, one_mul,
      Nat.cast_ofNat]
    exact power_near_two
  · obtain ⟨_, hmid, _⟩ := roundsTo_iff_neighbours.mp h
    have hnext := mul_value_succ_le (by decide) hlarge
    norm_num at hnext
    have hpos := value_nonneg rank
    linarith

/-- The decimal that the search finds is the shortest. -/
theorem isShortest_shortest (tie : Tie) (hrank : rank ≠ 0) : (shortest tie rank).IsShortest rank :=
  have hgrid := onCoarsestGrid_shortest tie hrank
  hgrid.isShortest hrank (power_near tie rank hgrid.rounds)

/-- Zero is written as it is. -/
theorem isShortest_zero : IsShortest ⟨0, 0⟩ 0 := by
  have hvalue : Decimal.value ⟨0, 0⟩ = value 0 := by simp [Decimal.value, value, units_of_subnormal]
  refine ⟨hvalue ▸ .value_self 0, fun y _ => ?_, fun y _ _ => ?_⟩
  · exact y.one_le_length
  · rw [hvalue, sub_self, abs_zero]
    exact abs_nonneg _

end Double

end ConfigModules
