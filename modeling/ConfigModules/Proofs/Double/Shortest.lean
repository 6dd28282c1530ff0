import ConfigModules.Double.Shortest
import ConfigModules.Proofs.Double.Rounding

/-! The shortest decimal of a magnitude reads back as that magnitude. The search may stop on any
grid, so the law is shown for every candidate that it can return. -/
namespace ConfigModules.Double

theorem mul_fives_mul_twos (m : Nat) {a b c p : Nat} (h : a + b = c + p) :
    m * 2 ^ a * 5 ^ p * 2 ^ b = m * 2 ^ c * 10 ^ p := by
  have hten : 10 ^ p = 5 ^ p * 2 ^ p := Nat.mul_pow 5 2 p
  calc m * 2 ^ a * 5 ^ p * 2 ^ b = m * 5 ^ p * 2 ^ (a + b) := by rw [Nat.pow_add]; ring
    _ = m * 2 ^ c * 10 ^ p := by rw [h, Nat.pow_add, hten]; ring

theorem exactDigits_scaled (rank : Nat) :
    exactDigits rank * Nat.pow 2 1074 = units rank * 10 ^ places rank := by
  have hcount : binade rank - 1075 + 1074 = binade rank - 1 + places rank := by
    unfold places
    omega
  exact mul_fives_mul_twos (significand rank) hcount

theorem nearestRank_exactDigits (rank : Nat) :
    nearestRank (exactDigits rank) (10 ^ places rank) = rank :=
  nearestRank_units (Nat.pow_pos (by decide)) (exactDigits_scaled rank)

theorem readsBack_exact (rank : Nat) : readsBack rank (exactDigits rank) 0 = true := by
  have h := nearestRank_exactDigits rank
  simpa [readsBack] using h

theorem readsBack_of_neighbour {tie : Tie} {rank k m : Nat} (h : neighbour? tie rank k = some m) :
    readsBack rank m k = true := by
  unfold neighbour? at h
  dsimp only at h
  by_cases hrest : exactDigits rank % Nat.pow 10 k = 0
  · -- The value lies on the grid.
    have hvalue : exactDigits rank / Nat.pow 10 k * Nat.pow 10 k = exactDigits rank :=
      Nat.div_mul_cancel (Nat.dvd_of_mod_eq_zero hrest)
    rw [if_pos hrest] at h
    obtain rfl := Option.some.inj h
    rw [readsBack, hvalue]
    exact beq_iff_eq.mpr (nearestRank_exactDigits rank)
  · rw [if_neg hrest] at h
    split at h
    · cases h
    · rename_i hlow _
      exact Option.some.inj h ▸ hlow
    · rename_i _ hhigh
      exact Option.some.inj h ▸ hhigh
    · rename_i hlow hhigh
      split_ifs at h
      · exact Option.some.inj h ▸ hlow
      · exact Option.some.inj h ▸ hhigh
      · exact Option.some.inj h ▸ hlow
      · exact Option.some.inj h ▸ hhigh

/-- Candidates are measured in units of the finest grid, decimals by their exponent. -/
theorem nearestRank_of_readsBack {rank m k : Nat} (h : readsBack rank m k = true) :
    nearestRank (m * 10 ^ ((k : Int) - (places rank : Int)).toNat)
      (10 ^ (-((k : Int) - (places rank : Int))).toNat) = rank := by
  have hread : nearestRank (m * 10 ^ k) (10 ^ places rank) = rank := beq_iff_eq.mp h
  rcases Nat.le_total k (places rank) with hle | hle
  · obtain ⟨d, hd⟩ := Nat.exists_eq_add_of_le hle
    have hup : ((k : Int) - (places rank : Int)).toNat = 0 := by omega
    have hdown : (-((k : Int) - (places rank : Int))).toNat = d := by omega
    rw [hup, hdown, Nat.pow_zero, Nat.mul_one,
      ← nearestRank_mul m (10 ^ d) (Nat.pow_pos (n := k) (by decide : 0 < 10)),
      ← Nat.pow_add, Nat.add_comm d k, ← hd, hread]
  · obtain ⟨d, hd⟩ := Nat.exists_eq_add_of_le hle
    have hup : ((k : Int) - (places rank : Int)).toNat = d := by omega
    have hdown : (-((k : Int) - (places rank : Int))).toNat = 0 := by omega
    rw [hup, hdown, Nat.pow_zero,
      ← nearestRank_mul (m * 10 ^ d) 1 (Nat.pow_pos (n := places rank) (by decide : 0 < 10)),
      Nat.one_mul, Nat.mul_assoc, ← Nat.pow_add, Nat.add_comm d, ← hd, hread]

theorem nearestRank_shortestFrom (tie : Tie) (rank k : Nat) :
    nearestRank ((shortestFrom tie rank k).digits * 10 ^ (shortestFrom tie rank k).exponent.toNat)
      (10 ^ (-(shortestFrom tie rank k).exponent).toNat) = rank := by
  induction k with
  | zero => simpa [shortestFrom] using nearestRank_of_readsBack (readsBack_exact rank)
  | succ k ih =>
    unfold shortestFrom
    split
    · rename_i m hm
      exact nearestRank_of_readsBack (readsBack_of_neighbour hm)
    · exact ih

theorem nearestRank_shortest (tie : Tie) (rank : Nat) :
    nearestRank ((shortest tie rank).digits * 10 ^ (shortest tie rank).exponent.toNat)
      (10 ^ (-(shortest tie rank).exponent).toNat) = rank := nearestRank_shortestFrom tie rank _

theorem digits_shortest_ne_zero (tie : Tie) {rank : Nat} (h : rank ≠ 0) :
    (shortest tie rank).digits ≠ 0 := by
  intro hz
  have hrank := nearestRank_shortest tie rank
  rw [hz, Nat.zero_mul, nearestRank_zero (Nat.pow_pos (by decide))] at hrank
  exact h hrank.symm

/-- Reading the shortest decimal of a finite magnitude gives that magnitude. -/
theorem ofDecimal_shortest (tie : Tie) (negative : Bool) (rank : Fin finiteCount) :
    ofDecimal negative (shortest tie rank).digits (shortest tie rank).exponent =
      .finite negative rank := by
  rw [ofDecimal_eq_ofQuotient, ofQuotient, nearestRank_shortest]
  exact dif_pos rank.isLt

end ConfigModules.Double
