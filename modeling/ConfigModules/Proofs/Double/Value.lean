import ConfigModules.Proofs.Double.Rounding
import Mathlib.Algebra.Order.Field.Power
import Mathlib.Algebra.Order.Field.Rat
import Mathlib.Order.Monotone.Basic
import Mathlib.Tactic.FieldSimp
import Mathlib.Tactic.Linarith
import Mathlib.Tactic.Positivity

/-! Ranks as exact numbers. A magnitude rounds to the rank whose value is nearest to it, a tie to the even
one, and that is the rank that `nearestRank` computes: it is enough to compare with the two midpoints. -/
namespace ConfigModules.Double

/-! ## The units of neighbouring ranks -/

/-- How far the next rank lies from a rank, in units. -/
def gap (rank : ℕ) : ℕ := 2 ^ (binade rank - 1)

/-- The units of a rank that is cut to at most 53 bits, with the carry among them. -/
theorem units_of_cut {s m : ℕ} (hm : m ≤ 2 ^ 53) (hs : s = 0 ∨ 2 ^ 52 ≤ m) :
    units (s * 2 ^ 52 + m) = m * 2 ^ s := by
  rcases Nat.lt_or_ge m (2 ^ 52) with hlt | hge
  · obtain rfl : s = 0 := hs.resolve_right (Nat.not_le.mpr hlt)
    rw [Nat.zero_mul, Nat.zero_add, units_of_subnormal hlt, Nat.pow_zero, Nat.mul_one]
  · have hsignificand := significand_of_normal (show 2 ^ 52 ≤ s * 2 ^ 52 + m by omega)
    have hunits : units (s * 2 ^ 52 + m) =
        significand (s * 2 ^ 52 + m) * 2 ^ ((s * 2 ^ 52 + m) / 2 ^ 52 - 1) := rfl
    rcases hm.lt_or_eq with hlt | rfl
    · rw [hunits, hsignificand]
      congr 1
      · omega
      · congr 1
        omega
    · -- The carry is the first rank of the next binade.
      rw [hunits, hsignificand, show (s * 2 ^ 52 + 2 ^ 53) / 2 ^ 52 - 1 = s + 1 by omega,
        show (s * 2 ^ 52 + 2 ^ 53) % 2 ^ 52 = 0 by omega]
      ring

theorem exists_cut (rank : ℕ) :
    ∃ m, rank = (binade rank - 1) * 2 ^ 52 + m ∧ m < 2 ^ 53 ∧ (binade rank - 1 = 0 ∨ 2 ^ 52 ≤ m) := by
  have hbinade : binade rank = rank / 2 ^ 52 := rfl
  refine ⟨rank - (binade rank - 1) * 2 ^ 52, ?_, ?_, ?_⟩ <;> omega

theorem units_succ (rank : ℕ) : units (rank + 1) = units rank + gap rank := by
  obtain ⟨m, hrank, hm, hs⟩ := exists_cut rank
  have hnext : rank + 1 = (binade rank - 1) * 2 ^ 52 + (m + 1) := by omega
  have hunits : units rank = m * 2 ^ (binade rank - 1) := by
    conv_lhs => rw [hrank]
    exact units_of_cut hm.le hs
  rw [hnext, units_of_cut hm (by omega), hunits, gap]
  exact Nat.succ_mul ..

theorem gap_pos (rank : ℕ) : 0 < gap rank := Nat.two_pow_pos _

theorem units_strictMono : StrictMono units :=
  strictMono_nat_of_lt_succ fun rank => by
    have := gap_pos rank
    rw [units_succ]
    omega

/-- A rank is many gaps above zero. -/
theorem mul_gap_le {c rank : ℕ} (hc : c ≤ 2 ^ 52) (hrank : c ≤ rank) : c * gap rank ≤ units rank := by
  obtain ⟨m, hcut, hm, hs⟩ := exists_cut rank
  have hunits : units rank = m * 2 ^ (binade rank - 1) := by
    conv_lhs => rw [hcut]
    exact units_of_cut hm.le hs
  rw [hunits]
  refine Nat.mul_le_mul_right _ ?_
  rcases hs with hzero | hs
  · rw [hzero] at hcut
    omega
  · omega

/-! ## Rounding -/

/-- The exact value of a rank. -/
def value (rank : ℕ) : ℚ := units rank / 2 ^ 1074

/-- A number rounds to the rank whose value is nearest. A tie goes to the even rank. The ranks go on past the
last finite one, so what rounds to a finite rank does not overflow. -/
structure RoundsTo (q : ℚ) (rank : ℕ) : Prop where
  nearest : ∀ other, |q - value rank| ≤ |q - value other|
  even : ∀ other ≠ rank, |q - value rank| = |q - value other| → rank % 2 = 0

theorem value_strictMono : StrictMono value := by
  intro rank rank' h
  have hunits : (units rank : ℚ) < units rank' := by exact_mod_cast units_strictMono h
  exact div_lt_div_of_pos_right hunits (by positivity)

theorem value_nonneg (rank : ℕ) : 0 ≤ value rank := by
  unfold value
  positivity

section

variable {a b q : ℚ} (h : a < b)
include h

theorem nearer_above_iff : |q - b| ≤ |q - a| ↔ a + b ≤ 2 * q := by
  rw [← sq_le_sq]
  constructor
  · intro hsq
    nlinarith
  · intro hmid
    nlinarith

theorem nearer_below_iff : |q - a| ≤ |q - b| ↔ 2 * q ≤ a + b := by
  rw [← sq_le_sq]
  constructor
  · intro hsq
    nlinarith
  · intro hmid
    nlinarith

theorem equally_near_iff : |q - b| = |q - a| ↔ a + b = 2 * q := by
  rw [le_antisymm_iff, nearer_above_iff h, nearer_below_iff h, ← le_antisymm_iff]

end

/-- What rounding asks of the midpoint between a rank and another one. -/
theorem roundsTo_iff_midpoints {q : ℚ} {rank : ℕ} :
    RoundsTo q rank ↔
      (∀ below < rank, value below + value rank ≤ 2 * q ∧
        (value below + value rank = 2 * q → rank % 2 = 0)) ∧
      ∀ above > rank, 2 * q ≤ value rank + value above ∧
        (value rank + value above = 2 * q → rank % 2 = 0) := by
  constructor
  · intro h
    refine ⟨fun below hlt => ?_, fun above hlt => ?_⟩
    · have hvalue := value_strictMono hlt
      refine ⟨(nearer_above_iff hvalue).mp (h.nearest below), fun hmid => ?_⟩
      exact h.even below hlt.ne ((equally_near_iff hvalue).mpr hmid)
    · have hvalue := value_strictMono hlt
      refine ⟨(nearer_below_iff hvalue).mp (h.nearest above), fun hmid => ?_⟩
      exact h.even above hlt.ne' ((equally_near_iff hvalue).mpr hmid).symm
  · rintro ⟨hbelow, habove⟩
    refine ⟨fun other => ?_, fun other hne heq => ?_⟩
    · rcases lt_trichotomy other rank with hlt | rfl | hlt
      · exact (nearer_above_iff (value_strictMono hlt)).mpr (hbelow other hlt).1
      · exact le_rfl
      · exact (nearer_below_iff (value_strictMono hlt)).mpr (habove other hlt).1
    · rcases hne.lt_or_gt with hlt | hlt
      · exact (hbelow other hlt).2 ((equally_near_iff (value_strictMono hlt)).mp heq)
      · exact (habove other hlt).2 ((equally_near_iff (value_strictMono hlt)).mp heq.symm)

/-- Only the midpoints to the neighbours matter. -/
theorem roundsTo_iff_neighbours {q : ℚ} {rank : ℕ} :
    RoundsTo q rank ↔
      (∀ below, below + 1 = rank → value below + value rank ≤ 2 * q ∧
        (value below + value rank = 2 * q → rank % 2 = 0)) ∧
      2 * q ≤ value rank + value (rank + 1) ∧
        (value rank + value (rank + 1) = 2 * q → rank % 2 = 0) := by
  rw [roundsTo_iff_midpoints]
  constructor
  · rintro ⟨hbelow, habove⟩
    exact ⟨fun below hsucc => hbelow below (by omega), habove (rank + 1) (Nat.lt_succ_self _)⟩
  · rintro ⟨hbelow, habove⟩
    refine ⟨fun below hlt => ?_, fun above hlt => ?_⟩
    · obtain ⟨last, rfl⟩ : ∃ last, rank = last + 1 := ⟨rank - 1, by omega⟩
      obtain ⟨hle, heven⟩ := hbelow last rfl
      have hmono : value below ≤ value last := value_strictMono.monotone (Nat.le_of_lt_succ hlt)
      refine ⟨by linarith, fun heq => heven ?_⟩
      linarith
    · obtain ⟨hle, heven⟩ := habove
      have hmono : value (rank + 1) ≤ value above := value_strictMono.monotone hlt
      refine ⟨by linarith, fun heq => heven ?_⟩
      linarith

namespace RoundsTo

variable {q q' : ℚ} {rank rank' : ℕ}

theorem value_self (rank : ℕ) : RoundsTo (value rank) rank := by
  refine ⟨fun other => by simp, fun other hne heq => ?_⟩
  rw [sub_self, abs_zero, eq_comm, abs_eq_zero, sub_eq_zero] at heq
  exact absurd (value_strictMono.injective heq).symm hne

/-- Two even ranks are not neighbours, and one between them is nearer. -/
theorem unique (h : RoundsTo q rank) (h' : RoundsTo q rank') : rank = rank' := by
  by_contra hne
  wlog hlt : rank < rank' generalizing rank rank'
  · exact this h' h (Ne.symm hne) (by omega)
  have heq : |q - value rank| = |q - value rank'| := le_antisymm (h.nearest rank') (h'.nearest rank)
  have heven := h.even rank' (Ne.symm hne) heq
  have heven' := h'.even rank hne heq.symm
  have hmid := (equally_near_iff (value_strictMono hlt)).mp heq.symm
  obtain ⟨hle, _⟩ := (roundsTo_iff_midpoints.mp h).2 (rank + 1) (Nat.lt_succ_self _)
  have hbetween : value (rank + 1) < value rank' := value_strictMono (by omega)
  linarith

/-- Rounding keeps the order. -/
theorem mono (h : RoundsTo q rank) (h' : RoundsTo q' rank') (hle : q ≤ q') : rank ≤ rank' := by
  by_contra hnot
  have hlt : rank' < rank := Nat.lt_of_not_le hnot
  obtain ⟨hlow, _⟩ := (roundsTo_iff_midpoints.mp h).1 rank' hlt
  obtain ⟨hhigh, _⟩ := (roundsTo_iff_midpoints.mp h').2 rank hlt
  obtain rfl : q = q' := by linarith
  exact hlt.ne (h'.unique h)

/-- What lies between two numbers that round alike rounds as they do. -/
theorem between {low high : ℚ} (hlow : RoundsTo low rank) (hhigh : RoundsTo high rank) (hl : low ≤ q)
    (hh : q ≤ high) : RoundsTo q rank := by
  rw [roundsTo_iff_midpoints] at hlow hhigh ⊢
  refine ⟨fun below hlt => ?_, fun above hlt => ?_⟩
  · obtain ⟨hle, heven⟩ := hlow.1 below hlt
    refine ⟨by linarith, fun heq => heven ?_⟩
    linarith
  · obtain ⟨hle, heven⟩ := hhigh.2 above hlt
    refine ⟨by linarith, fun heq => heven ?_⟩
    linarith

end RoundsTo

/-! ## The rank that is computed -/

/-- The rounded quotient is at most one half away, and even where it is just that. -/
theorem roundQuotient_spec (num : ℕ) {den : ℕ} (hd : 0 < den) :
    2 * (roundQuotient num den * den) ≤ 2 * num + den ∧
    (2 * (roundQuotient num den * den) = 2 * num + den → roundQuotient num den % 2 = 0) ∧
    2 * num ≤ 2 * (roundQuotient num den * den) + den ∧
    (2 * num = 2 * (roundQuotient num den * den) + den → roundQuotient num den % 2 = 0) := by
  have hnum : num / den * den + num % den = num := Nat.div_add_mod' num den
  have hrest : num % den < den := Nat.mod_lt _ hd
  unfold roundQuotient
  dsimp only
  split_ifs with hdown
  · generalize num / den * den = floor at hnum ⊢
    omega
  · simp only [Nat.add_one_mul]
    generalize num / den * den = floor at hnum ⊢
    omega

/-- Rounding a quotient, in units. -/
theorem roundsTo_quotient_iff {num den rank : ℕ} (hd : 0 < den) :
    RoundsTo (num / den) rank ↔
      (∀ below, below + 1 = rank → (units below + units rank) * den ≤ 2 * (num * 2 ^ 1074) ∧
        ((units below + units rank) * den = 2 * (num * 2 ^ 1074) → rank % 2 = 0)) ∧
      2 * (num * 2 ^ 1074) ≤ (units rank + units (rank + 1)) * den ∧
        ((units rank + units (rank + 1)) * den = 2 * (num * 2 ^ 1074) → rank % 2 = 0) := by
  have hdq : (0 : ℚ) < den := by exact_mod_cast hd
  have hle : ∀ a b : ℕ, value a + value b ≤ 2 * (num / den) ↔
      (units a + units b) * den ≤ 2 * (num * 2 ^ 1074) := by
    intro a b
    rw [value, value, ← add_div, ← mul_div_assoc, div_le_div_iff₀ (by positivity) hdq, mul_assoc]
    exact_mod_cast Iff.rfl
  have hge : ∀ a b : ℕ, 2 * (num / den) ≤ value a + value b ↔
      2 * (num * 2 ^ 1074) ≤ (units a + units b) * den := by
    intro a b
    rw [value, value, ← add_div, ← mul_div_assoc, div_le_div_iff₀ hdq (by positivity), mul_assoc]
    exact_mod_cast Iff.rfl
  simp only [roundsTo_iff_neighbours, le_antisymm_iff, hle, hge]

section

variable {s m : ℕ}

theorem le_gap_of_cut (hs : s = 0 ∨ 2 ^ 52 ≤ m) : 2 ^ s ≤ gap (s * 2 ^ 52 + m) := by
  have hbinade : binade (s * 2 ^ 52 + m) = (s * 2 ^ 52 + m) / 2 ^ 52 := rfl
  exact Nat.pow_le_pow_right (by decide) (by omega)

theorem gap_below_cut {below : ℕ} (hbelow : below + 1 = s * 2 ^ 52 + m) (hm : m ≤ 2 ^ 53)
    (hs : s = 0 ∨ 2 ^ 52 < m) : gap below = 2 ^ s := by
  have hbinade : binade below = below / 2 ^ 52 := rfl
  exact congrArg (2 ^ ·) (show binade below - 1 = s by omega)

/-- A quotient that is cut to 53 bits and rounded lies between the midpoints. -/
theorem midpoints_of_cut {n den rank : ℕ} (hd : 0 < den) (hrank : rank = s * 2 ^ 52 + m)
    (hm : m = roundQuotient n (den * 2 ^ s)) (hhigh : n < 2 ^ 53 * (den * 2 ^ s))
    (hlow : s = 0 ∨ 2 ^ 52 * (den * 2 ^ s) ≤ n) :
    (∀ below, below + 1 = rank → (units below + units rank) * den ≤ 2 * n ∧
        ((units below + units rank) * den = 2 * n → rank % 2 = 0)) ∧
      2 * n ≤ (units rank + units (rank + 1)) * den ∧
        ((units rank + units (rank + 1)) * den = 2 * n → rank % 2 = 0) := by
  have hunit : 0 < den * 2 ^ s := Nat.mul_pos hd (Nat.two_pow_pos s)
  obtain ⟨hdown, hdownEven, hup, hupEven⟩ := roundQuotient_spec n hunit
  rw [← hm] at hdown hdownEven hup hupEven
  have hm53 : m ≤ 2 ^ 53 := by
    by_contra hnot
    nlinarith
  have hm52 : s = 0 ∨ 2 ^ 52 ≤ m := by
    refine hlow.imp_right fun hlow => ?_
    by_contra hnot
    nlinarith
  have hparity : rank % 2 = m % 2 := by omega
  have hunits : units rank * den = m * (den * 2 ^ s) := by
    rw [hrank, units_of_cut hm53 hm52]
    ring
  rw [hparity]
  constructor
  · intro below hbelow
    have hstep : units rank * den = units below * den + gap below * den := by
      rw [← hbelow, units_succ]
      ring
    rw [Nat.add_mul]
    by_cases hcut : s = 0 ∨ 2 ^ 52 < m
    · rw [gap_below_cut (hbelow.trans hrank) hm53 hcut, Nat.mul_comm (2 ^ s)] at hstep
      omega
    · -- The rank below belongs to a finer binade, and the quotient is not below the rank.
      rw [not_or, Nat.not_lt] at hcut
      obtain rfl : m = 2 ^ 52 := Nat.le_antisymm hcut.2 (hm52.resolve_left hcut.1)
      have hn := hlow.resolve_left hcut.1
      have hgap : 0 < gap below * den := Nat.mul_pos (gap_pos below) hd
      omega
  · have hgap : den * 2 ^ s ≤ gap rank * den := by
      rw [Nat.mul_comm den, hrank]
      exact Nat.mul_le_mul_right _ (le_gap_of_cut hm52)
    rw [units_succ, Nat.add_mul, Nat.add_mul]
    omega

end

/-- The cut keeps 53 bits, all of them significant once any are cut off. -/
theorem cut_bounds (n : ℕ) {den : ℕ} (hd : 0 < den) :
    n < 2 ^ 53 * (den * 2 ^ ((n / den).log2 - 52)) ∧
      ((n / den).log2 - 52 = 0 ∨ 2 ^ 52 * (den * 2 ^ ((n / den).log2 - 52)) ≤ n) := by
  obtain ⟨floor, hfloor⟩ : ∃ floor, floor = n / den := ⟨_, rfl⟩
  rw [← hfloor]
  constructor
  · have hlt : floor < 2 ^ (53 + (floor.log2 - 52)) :=
      Nat.lt_of_lt_of_le Nat.lt_log2_self (Nat.pow_le_pow_right (by decide) (by omega))
    rw [hfloor, Nat.div_lt_iff_lt_mul hd, ← hfloor, Nat.pow_add] at hlt
    rwa [Nat.mul_left_comm, Nat.mul_comm den]
  · by_cases hsmall : floor.log2 - 52 = 0
    · exact .inl hsmall
    · right
      have hne : floor ≠ 0 := by
        rintro rfl
        simp at hsmall
      have hle : 2 ^ (52 + (floor.log2 - 52)) ≤ floor := by
        rw [Nat.add_sub_cancel' (by omega)]
        exact Nat.log2_self_le hne
      rw [hfloor, Nat.le_div_iff_mul_le hd, ← hfloor, Nat.pow_add] at hle
      rwa [Nat.mul_left_comm, Nat.mul_comm den]

/-- The computed rank is the one to round to. -/
theorem roundsTo_nearestRank (num : ℕ) {den : ℕ} (hd : 0 < den) :
    RoundsTo (num / den) (nearestRank num den) := by
  rw [roundsTo_quotient_iff hd]
  obtain ⟨n, hn⟩ : ∃ n, n = num * 2 ^ 1074 := ⟨_, rfl⟩
  have hcut : nearestRank num den = ((n / den).log2 - 52) * 2 ^ 52 +
      roundQuotient n (den * 2 ^ ((n / den).log2 - 52)) := by
    simp only [nearestRank, Nat.pow_eq, ← hn]
  obtain ⟨hhigh, hlow⟩ := cut_bounds n hd
  rw [← hn]
  exact midpoints_of_cut hd hcut rfl hhigh hlow

theorem nearestRank_eq_iff {num den rank : ℕ} (hd : 0 < den) :
    nearestRank num den = rank ↔ RoundsTo (num / den) rank := by
  constructor
  · rintro rfl
    exact roundsTo_nearestRank num hd
  · intro h
    exact (roundsTo_nearestRank num hd).unique h

/-! ## Past the last finite rank -/

theorem value_finiteCount : value finiteCount = 2 ^ 1024 := by
  have hunits : units finiteCount = 2 ^ 1024 * 2 ^ 1074 := by decide +kernel
  rw [value, hunits, Nat.cast_mul, Nat.cast_pow, Nat.cast_pow]
  push_cast
  exact mul_div_cancel_right₀ _ (by positivity)

theorem value_last : value (finiteCount - 1) + 2 ^ 971 = 2 ^ 1024 := by
  have hunits : units (finiteCount - 1) + 2 ^ 971 * 2 ^ 1074 = units finiteCount := by decide +kernel
  rw [← value_finiteCount, value, value, ← hunits, Nat.cast_add, Nat.cast_mul, Nat.cast_pow, Nat.cast_pow,
    Nat.cast_ofNat, add_div, mul_div_cancel_right₀ _ (by positivity)]

/-- What rounds past the last finite rank lies at least half a gap above it: the tie goes up, since the last rank
is odd. -/
theorem RoundsTo.finiteCount_le_iff {q : ℚ} {rank : ℕ} (h : RoundsTo q rank) :
    finiteCount ≤ rank ↔ 2 ^ 1024 - 2 ^ 970 ≤ q := by
  obtain ⟨hbelow, habove⟩ := roundsTo_iff_midpoints.mp h
  have hlast := value_last
  have hpast := value_finiteCount
  rw [pow_succ' 2 970] at hlast
  have hsucc : finiteCount - 1 + 1 = finiteCount := rfl
  have hodd : (finiteCount - 1) % 2 = 1 := rfl
  generalize finiteCount - 1 = last at hlast hsucc hodd
  rw [← hsucc] at hpast ⊢
  -- the powers are kept as unknowns, of which only the two equations matter
  generalize (2 : ℚ) ^ 1024 = top at hlast hpast ⊢
  generalize (2 : ℚ) ^ 970 = half at hlast ⊢
  constructor
  · intro hle
    obtain ⟨hmid, _⟩ := hbelow last (by omega)
    have hvalue : value (last + 1) ≤ value rank := value_strictMono.monotone hle
    linarith
  · intro hq
    by_contra hlt
    obtain ⟨hmid, heven⟩ := habove (last + 1) (by omega)
    have hvalue : value rank ≤ value last := value_strictMono.monotone (by omega)
    have hsame : value rank = value last := by linarith
    obtain rfl : rank = last := value_strictMono.injective hsame
    have heven' := heven (by linarith)
    omega

end ConfigModules.Double
