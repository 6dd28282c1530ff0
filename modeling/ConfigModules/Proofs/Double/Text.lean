import ConfigModules.Proofs.Double.Shortness
import ConfigModules.Proofs.Script.NumberText

/-! The text of a double in a module. It spells the shortest decimal of the magnitude, without an exponent from
the double nearest to 10^-6 up to 10^21, and two doubles have the same text only if they are the same. -/
namespace ConfigModules

namespace Layout

/-- Digits of a decimal and their exponent, written without an exponent: as an integer with zeros after it,
with the point among the digits, or with zeros after the point. -/
inductive Positional (digits : List Char) : ℤ → List Char → Prop
  | whole (k : ℕ) : Positional digits k (digits ++ zeros k)
  | inside {whole fraction : List Char} : digits = whole ++ fraction → whole ≠ [] → fraction ≠ [] →
      Positional digits (-(fraction.length : ℤ)) (whole ++ '.' :: fraction)
  | below (k : ℕ) :
      Positional digits (-(digits.length + k : ℕ)) ('0' :: '.' :: (zeros k ++ digits))

/-- An exponent with its sign and without leading zeros. -/
def signedExponent (e : ℤ) : List Char := 'e' :: (if e < 0 then '-' else '+') :: digitsOf e.natAbs

/-- Digits of a decimal and their exponent, written with an exponent for the first digit. -/
inductive Scientific : (digits : List Char) → ℤ → List Char → Prop
  | one {d : Char} {e : ℤ} : Scientific [d] e (d :: signedExponent e)
  | more {d : Char} {ds : List Char} {e : ℤ} : ds ≠ [] →
      Scientific (d :: ds) e (d :: '.' :: ds ++ signedExponent (e + ds.length))

theorem Positional.no_exponent {digits : List Char} {e : ℤ} {text : List Char} (h : Positional digits e text)
    (hdigits : ∀ c ∈ digits, c.isDigit = true) : 'e' ∉ text := by
  have hletter : ∀ cs : List Char, (∀ c ∈ cs, c.isDigit = true) → 'e' ∉ cs := by
    intro cs hcs hmem
    exact absurd (hcs _ hmem) (by decide)
  have hzeros : ∀ k, 'e' ∉ zeros k := fun k => hletter _ fun c => Script.isDigit_of_mem_zeros
  cases h with
  | whole k => simp [hletter _ hdigits, hzeros]
  | inside hparts _ _ =>
    subst hparts
    simpa using hletter _ hdigits
  | below k => simp [hletter _ hdigits, hzeros]

theorem Scientific.exponent {digits : List Char} {e : ℤ} {text : List Char} (h : Scientific digits e text) :
    'e' ∈ text := by
  cases h with
  | one => simp [signedExponent]
  | more _ => simp [signedExponent]

theorem exponent_script (e : ℤ) : script.exponent e = signedExponent e := by
  by_cases h : e < 0 <;> simp [exponent, signedExponent, script, h]

variable {digits : List Char} {e n : ℤ}

theorem positional_script (hn : n = digits.length + e) :
    Positional digits e (script.positional digits n) := by
  rw [positional]
  split_ifs with hbelow hinside hkeep
  · obtain rfl : e = -(digits.length + (-n).toNat : ℕ) := by omega
    exact .below _
  · have hfraction : (digits.drop n.toNat).length = digits.length - n.toNat := List.length_drop
    obtain rfl : e = -((digits.drop n.toNat).length : ℤ) := by omega
    refine .inside (List.take_append_drop _ _).symm ?_ ?_
    · rw [Ne, List.take_eq_nil_iff]
      rintro (hzero | hnil)
      · omega
      · simp [hnil] at hinside
    · rw [Ne, List.drop_eq_nil_iff]
      omega
  · exact absurd hkeep (by decide)
  · obtain rfl : e = (n.toNat - digits.length : ℕ) := by omega
    rw [List.append_nil]
    exact .whole _

theorem scientific_script (hdigits : digits ≠ []) (hn : n = digits.length + e) :
    Scientific digits e (script.scientific digits n) := by
  match digits, hdigits with
  | [d], _ =>
    obtain rfl : n = 1 + e := by simpa using hn
    simpa [scientific, exponent_script] using Scientific.one
  | d :: d' :: ds, _ =>
    obtain rfl : n = e + (d' :: ds).length + 1 := by
      rw [hn]
      push_cast [List.length_cons]
      ring
    simpa [scientific, exponent_script] using Scientific.more (List.cons_ne_nil d' ds)

end Layout

/-! ## Where the exponent begins -/

namespace Decimal

/-- A decimal reaches a power of ten by the place of its first digit. -/
theorem pow_le_value_iff {x : Decimal} (hx : x.digits ≠ 0) (k : ℤ) :
    10 ^ k ≤ x.value ↔ k < x.length + x.exponent := by
  have hlength := x.one_le_length
  constructor
  · intro hle
    by_contra hnot
    have hdigits : (x.digits : ℚ) < 10 ^ x.length := by exact_mod_cast x.digits_lt_pow
    have hlt : x.value < 10 ^ (x.length + x.exponent : ℤ) := by
      rw [value, zpow_add₀ (by norm_num), zpow_natCast]
      exact mul_lt_mul_of_pos_right hdigits (by positivity)
    have hpower : (10 : ℚ) ^ (x.length + x.exponent : ℤ) ≤ 10 ^ k :=
      zpow_le_zpow_right₀ (by norm_num) (not_lt.mp hnot)
    linarith
  · intro hlt
    have hdigits : ((10 ^ (x.length - 1) : ℕ) : ℚ) ≤ x.digits := by exact_mod_cast pow_le_digits hx
    have hpower : (10 : ℚ) ^ k ≤ 10 ^ ((x.length - 1 : ℕ) + x.exponent : ℤ) :=
      zpow_le_zpow_right₀ (by norm_num) (by omega)
    rw [zpow_add₀ (by norm_num), zpow_natCast] at hpower
    refine hpower.trans ?_
    rw [value]
    push_cast at hdigits
    exact mul_le_mul_of_nonneg_right hdigits (by positivity)

end Decimal

namespace Double

open Layout (Positional Scientific)

/-- The rank that a power of ten rounds to tells which magnitudes are written as reaching that power. -/
theorem pow_le_shortest_iff {rank bound : ℕ} (hrank : rank ≠ 0) {k : ℤ} (hk : RoundsTo (10 ^ k) bound)
    (hbound : shortest .up bound = ⟨1, k⟩) : 10 ^ k ≤ (shortest .up rank).value ↔ bound ≤ rank := by
  have hrounds := (isShortest_shortest .up hrank).rounds
  constructor
  · exact fun hle => hk.mono hrounds hle
  · intro hle
    by_contra hnot
    obtain rfl := Nat.le_antisymm hle (hrounds.mono hk (not_le.mp hnot).le)
    rw [hbound] at hnot
    simp [Decimal.value] at hnot

/-- The rank of the double nearest to 10^-6. It lies a little below. -/
def millionth : ℕ := 0x3eb0c6f7a0b5ed8d

/-- The rank of 10^21. -/
def sextillion : ℕ := 0x444b1ae4d6e2ef50

theorem roundsTo_millionth : RoundsTo (10 ^ (-6 : ℤ)) millionth := by
  have hrank : nearestRank 1 1000000 = millionth := by decide +kernel
  have hrounds := (nearestRank_eq_iff (by decide)).mp hrank
  norm_num at hrounds ⊢
  exact hrounds

theorem value_sextillion : value sextillion = 10 ^ 21 := by
  have hunits : units sextillion = 10 ^ 21 * 2 ^ 1074 := by decide +kernel
  rw [value, hunits, Nat.cast_mul, Nat.cast_pow, Nat.cast_pow]
  push_cast
  exact mul_div_cancel_right₀ _ (by positivity)

theorem millionth_between :
    value millionth < 10 ^ (-6 : ℤ) ∧ 10 ^ (-6 : ℤ) < value (millionth + 1) := by
  have hunits : units millionth * 10 ^ 6 < 1 * 2 ^ 1074 ∧ 1 * 2 ^ 1074 < units (millionth + 1) * 10 ^ 6 := by
    decide +kernel
  rw [value, value, show (-6 : ℤ) = -(6 : ℕ) from rfl, zpow_neg, zpow_natCast, inv_eq_one_div,
    div_lt_div_iff₀ (by positivity) (by positivity), div_lt_div_iff₀ (by positivity) (by positivity)]
  exact_mod_cast hunits

/-- The magnitudes that are written without an exponent. -/
def IsPositional (rank : ℕ) : Prop :=
  rank = 0 ∨ RoundsTo (10 ^ (-6 : ℤ)) rank ∨ 10 ^ (-6 : ℤ) ≤ value rank ∧ value rank < 10 ^ 21

theorem isPositional_iff {rank : ℕ} (hrank : rank ≠ 0) :
    IsPositional rank ↔ millionth ≤ rank ∧ rank < sextillion := by
  obtain ⟨hbelow, habove⟩ := millionth_between
  have hnearest : RoundsTo (10 ^ (-6 : ℤ)) rank ↔ rank = millionth := by
    constructor
    · exact fun h => h.unique roundsTo_millionth
    · rintro rfl
      exact roundsTo_millionth
  have hlow : 10 ^ (-6 : ℤ) ≤ value rank ↔ millionth + 1 ≤ rank := by
    constructor
    · intro hle
      exact value_strictMono.lt_iff_lt.mp (hbelow.trans_le hle)
    · intro hle
      exact habove.le.trans (value_strictMono.monotone hle)
  have hhigh : value rank < 10 ^ 21 ↔ rank < sextillion := by
    rw [← value_sextillion]
    exact value_strictMono.lt_iff_lt
  have horder : millionth < sextillion := by decide
  rw [IsPositional, hnearest, hlow, hhigh]
  omega

/-- The point stands within reach exactly in these magnitudes. -/
theorem point_in_reach_iff {rank : ℕ} (hrank : rank ≠ 0) :
    (Layout.script.lowest ≤ (shortest .up rank).length + (shortest .up rank).exponent ∧
      (shortest .up rank).length + (shortest .up rank).exponent ≤ Layout.script.highest) ↔
    IsPositional rank := by
  have hdigits := digits_shortest_ne_zero .up hrank
  have hlow := Decimal.pow_le_value_iff hdigits (-6)
  have hhigh := Decimal.pow_le_value_iff hdigits 21
  rw [pow_le_shortest_iff hrank roundsTo_millionth (by decide +kernel)] at hlow
  have hsextillion : RoundsTo (10 ^ (21 : ℤ)) sextillion := by
    have hself := RoundsTo.value_self sextillion
    rw [value_sextillion] at hself
    exact_mod_cast hself
  rw [pow_le_shortest_iff hrank hsextillion (by decide +kernel)] at hhigh
  rw [isPositional_iff hrank]
  have hbounds : Layout.script.lowest = -5 ∧ Layout.script.highest = 21 := ⟨rfl, rfl⟩
  omega

/-- The text of a finite magnitude. -/
theorem magnitude_text (rank : ℕ) :
    ∃ d : Decimal, d.IsShortest rank ∧
      (IsPositional rank → Positional (Layout.digitsOf d.digits) d.exponent (Layout.script.magnitude rank)) ∧
      (¬IsPositional rank → Scientific (Layout.digitsOf d.digits) d.exponent (Layout.script.magnitude rank)) := by
  by_cases hrank : rank = 0
  · subst hrank
    refine ⟨⟨0, 0⟩, isShortest_zero, fun _ => ?_, fun hnot => absurd (.inl rfl) hnot⟩
    exact .whole 0
  · refine ⟨shortest .up rank, isShortest_shortest .up hrank, fun hpositional => ?_, fun hnot => ?_⟩
    · rw [Layout.magnitude, if_neg hrank, Layout.decimal]
      have hreach := (point_in_reach_iff hrank).mpr hpositional
      exact (if_pos hreach).symm ▸ Layout.positional_script rfl
    · rw [Layout.magnitude, if_neg hrank, Layout.decimal]
      have hreach := mt (point_in_reach_iff hrank).mp hnot
      exact (if_neg hreach).symm ▸ Layout.scientific_script Nat.toDigits_ne_nil rfl

/-! ## Texts of different doubles -/

theorem magnitude_start (rank : Fin finiteCount) :
    ∃ c cs, Layout.script.magnitude rank = c :: cs ∧ c.isDigit = true := by
  obtain ⟨d, hchars, _, _⟩ := Script.DecimalNumeral.exists_magnitude rank
  exact hchars ▸ d.chars_start

/-- The reader of numerals finds the magnitude again. -/
theorem magnitude_injective {rank rank' : Fin finiteCount}
    (h : Layout.script.magnitude rank = Layout.script.magnitude rank') : rank = rank' := by
  obtain ⟨d, hchars, hdouble, _⟩ := Script.DecimalNumeral.exists_magnitude rank
  obtain ⟨d', hchars', hdouble', _⟩ := Script.DecimalNumeral.exists_magnitude rank'
  have hparted : Script.Parted [';'] := List.mem_cons_of_mem _ (by decide)
  have hread := Script.NumberText.read?_append d hparted
  rw [← hchars, h, hchars', Script.NumberText.read?_append d' hparted, hdouble, hdouble'] at hread
  simpa using hread.symm

/-- The sign and the rest of the text of a double. -/
def parts : Double → Bool × List Char
  | .nan => (false, Layout.script.nanText.toList)
  | .infinite negative => (negative, Layout.script.infinityText.toList)
  | .finite negative rank => (negative, Layout.script.magnitude rank)

theorem chars_eq_parts (x : Double) : Layout.script.chars x = Layout.sign x.parts.1 ++ x.parts.2 := by
  cases x <;> rfl

theorem parts_injective {x y : Double} (h : x.parts = y.parts) : x = y := by
  have hwords : Layout.script.nanText.toList ≠ Layout.script.infinityText.toList := by decide
  have hword : ∀ (rank : Fin finiteCount) (c : Char) (cs : List Char), c.isDigit = false →
      Layout.script.magnitude rank ≠ c :: cs := by
    intro rank c cs hc heq
    obtain ⟨d, ds, hstart, hd⟩ := magnitude_start rank
    obtain ⟨rfl, _⟩ := List.cons.inj (heq.symm.trans hstart)
    exact Bool.false_ne_true (hc.symm.trans hd)
  cases x with
  | nan =>
    cases y with
    | nan => rfl
    | infinite _ => exact absurd (congrArg Prod.snd h) hwords
    | finite _ rank => exact absurd (congrArg Prod.snd h).symm (hword rank _ _ (by decide))
  | infinite _ =>
    cases y with
    | nan => exact absurd (congrArg Prod.snd h).symm hwords
    | infinite _ => exact congrArg Double.infinite (congrArg Prod.fst h)
    | finite _ rank => exact absurd (congrArg Prod.snd h).symm (hword rank _ _ (by decide))
  | finite _ rank =>
    cases y with
    | nan => exact absurd (congrArg Prod.snd h) (hword rank _ _ (by decide))
    | infinite _ => exact absurd (congrArg Prod.snd h) (hword rank _ _ (by decide))
    | finite _ _ =>
      obtain ⟨rfl, hmagnitude⟩ := Prod.mk.inj h
      rw [magnitude_injective hmagnitude]

theorem parts_unsigned (x : Double) : ∃ c cs, x.parts.2 = c :: cs ∧ c ≠ '-' := by
  cases x with
  | nan => exact ⟨'N', ['a', 'N'], by decide, by decide⟩
  | infinite _ => exact ⟨'I', _, rfl, by decide⟩
  | finite _ rank =>
    obtain ⟨c, cs, hstart, hc⟩ := magnitude_start rank
    refine ⟨c, cs, hstart, ?_⟩
    rintro rfl
    exact absurd hc (by decide)

theorem sign_append_inj {m n : Bool} {c d : Char} {cs ds : List Char} (hc : c ≠ '-') (hd : d ≠ '-')
    (h : Layout.sign m ++ c :: cs = Layout.sign n ++ d :: ds) : m = n ∧ c :: cs = d :: ds := by
  cases m <;> cases n
  · exact ⟨rfl, h⟩
  · exact absurd (List.cons.inj h).1 hc
  · exact absurd (List.cons.inj h).1.symm hd
  · exact ⟨rfl, (List.cons.inj h).2⟩

/-- Two doubles have the same text only if they are the same. -/
theorem text_injective : Function.Injective text := by
  intro x y h
  have hchars : Layout.script.chars x = Layout.script.chars y := String.ofList_injective h
  obtain ⟨c, cs, hx, hc⟩ := x.parts_unsigned
  obtain ⟨d, ds, hy, hd⟩ := y.parts_unsigned
  rw [chars_eq_parts, chars_eq_parts, hx, hy] at hchars
  obtain ⟨hsign, hrest⟩ := sign_append_inj hc hd hchars
  exact parts_injective (Prod.ext hsign (by rw [hx, hy, hrest]))

/-! ## Bit patterns -/

def exponentBits (bits : UInt64) : ℕ := bits.toNat / 2 ^ 52 % 2 ^ 11

def fractionBits (bits : UInt64) : ℕ := bits.toNat % 2 ^ 52

/-- The exact magnitude that a finite bit pattern names. -/
def exactMagnitude (bits : UInt64) : ℚ :=
  if exponentBits bits = 0 then fractionBits bits * 2 ^ (-1074 : ℤ)
  else (2 ^ 52 + fractionBits bits) * 2 ^ (exponentBits bits - 1075 : ℤ)

theorem value_of_bits (bits : UInt64) : value (bits.toNat % 2 ^ 63) = exactMagnitude bits := by
  have hbits : bits.toNat % 2 ^ 63 = exponentBits bits * 2 ^ 52 + fractionBits bits := by
    rw [exponentBits, fractionBits]
    omega
  have hfraction : fractionBits bits < 2 ^ 52 := Nat.mod_lt _ (by decide)
  rw [hbits, exactMagnitude, value]
  split_ifs with hzero
  · rw [hzero, Nat.zero_mul, Nat.zero_add, units_of_subnormal hfraction,
      show (-1074 : ℤ) = -(1074 : ℕ) from rfl, zpow_neg, zpow_natCast, div_eq_mul_inv]
  · obtain ⟨e, he⟩ := Nat.exists_eq_succ_of_ne_zero hzero
    have hcut : (e + 1) * 2 ^ 52 + fractionBits bits = e * 2 ^ 52 + (2 ^ 52 + fractionBits bits) := by omega
    rw [he, Nat.succ_eq_add_one, hcut, units_of_cut (by omega) (.inr (by omega)),
      show ((e + 1 : ℕ) - 1075 : ℤ) = e - (1074 : ℕ) by push_cast; ring, zpow_sub₀ (by norm_num), zpow_natCast,
      zpow_natCast]
    push_cast
    exact mul_div_assoc ..

theorem ofBits_finite {bits : UInt64} (h : exponentBits bits < 2047) :
    ∃ rank : Fin finiteCount, rank.val = bits.toNat % 2 ^ 63 ∧
      ofBits bits = .finite (decide (2 ^ 63 ≤ bits.toNat)) rank := by
  have hlt : bits.toNat < 2 ^ 64 := bits.toNat_lt
  have hfinite : bits.toNat % Nat.pow 2 63 < finiteCount := by
    rw [exponentBits] at h
    simp only [finiteCount, Nat.pow_eq]
    omega
  have hsign : (bits.toNat / Nat.pow 2 63 = 1) = (2 ^ 63 ≤ bits.toNat) := by
    simp only [Nat.pow_eq, eq_iff_iff]
    omega
  refine ⟨⟨_, hfinite⟩, rfl, ?_⟩
  unfold ofBits
  simp only [hsign]
  exact dif_pos hfinite

/-- A pattern that is not one of the NaN patterns. -/
def IsNumberPattern (bits : UInt64) : Prop := exponentBits bits < 2047 ∨ fractionBits bits = 0

theorem ofBits_infinite {bits : UInt64} (h : ¬exponentBits bits < 2047) (hfraction : fractionBits bits = 0) :
    ofBits bits = .infinite (decide (2 ^ 63 ≤ bits.toNat)) := by
  have hlt : bits.toNat < 2 ^ 64 := bits.toNat_lt
  have hcount : bits.toNat % Nat.pow 2 63 = finiteCount := by
    rw [exponentBits] at h
    rw [fractionBits] at hfraction
    simp only [finiteCount, Nat.pow_eq]
    omega
  have hsign : (bits.toNat / Nat.pow 2 63 = 1) = (2 ^ 63 ≤ bits.toNat) := by
    simp only [Nat.pow_eq, eq_iff_iff]
    omega
  unfold ofBits
  simp only [hsign, hcount]
  exact (dif_neg (lt_irrefl _)).trans (if_pos trivial)

/-- But for the NaN patterns, each pattern is a double of its own. -/
theorem ofBits_injective {bits bits' : UInt64} (h : IsNumberPattern bits) (h' : IsNumberPattern bits')
    (heq : ofBits bits = ofBits bits') : bits = bits' := by
  have hlt : bits.toNat < 2 ^ 64 := bits.toNat_lt
  have hlt' : bits'.toNat < 2 ^ 64 := bits'.toNat_lt
  apply UInt64.toNat_inj.mp
  by_cases hfinite : exponentBits bits < 2047 <;> by_cases hfinite' : exponentBits bits' < 2047
  · obtain ⟨rank, hrank, hbits⟩ := ofBits_finite hfinite
    obtain ⟨rank', hrank', hbits'⟩ := ofBits_finite hfinite'
    rw [hbits, hbits', Double.finite.injEq, decide_eq_decide] at heq
    obtain ⟨hsign, rfl⟩ := heq
    omega
  · obtain ⟨rank, hrank, hbits⟩ := ofBits_finite hfinite
    rw [hbits, ofBits_infinite hfinite' (h'.resolve_left hfinite')] at heq
    cases heq
  · obtain ⟨rank', hrank', hbits'⟩ := ofBits_finite hfinite'
    rw [hbits', ofBits_infinite hfinite (h.resolve_left hfinite)] at heq
    cases heq
  · have hfraction := h.resolve_left hfinite
    have hfraction' := h'.resolve_left hfinite'
    rw [ofBits_infinite hfinite hfraction, ofBits_infinite hfinite' hfraction', Double.infinite.injEq,
      decide_eq_decide] at heq
    rw [exponentBits] at hfinite hfinite'
    rw [fractionBits] at hfraction hfraction'
    omega

/-- The text of a double says which one it is, with as few digits as can be. For a finite bit pattern there are
a sign, if the sign bit is set, and the shortest decimal of the magnitude, written without an exponent exactly
if it is zero, the one nearest to 10^-6, or from 10^-6 up to 10^21. And no two patterns that are not NaN have
the same text. -/
theorem number_text_shortest :
    (∀ bits : UInt64, exponentBits bits < 2047 → ∃ (rank : ℕ) (d : Decimal) (body : List Char),
      rank = bits.toNat % 2 ^ 63 ∧ value rank = exactMagnitude bits ∧ d.IsShortest rank ∧
      (Number.real (ofBits bits)).text =
        String.ofList ((if 2 ^ 63 ≤ bits.toNat then ['-'] else []) ++ body) ∧
      ('e' ∉ body ↔ IsPositional rank) ∧
      (IsPositional rank → Positional (Layout.digitsOf d.digits) d.exponent body) ∧
      (¬IsPositional rank → Scientific (Layout.digitsOf d.digits) d.exponent body)) ∧
    ∀ bits bits' : UInt64, IsNumberPattern bits → IsNumberPattern bits' →
      (Number.real (ofBits bits)).text = (Number.real (ofBits bits')).text → bits = bits' := by
  constructor
  · intro bits hfinite
    obtain ⟨rank, hrank, hbits⟩ := ofBits_finite hfinite
    obtain ⟨d, hshortest, hpositional, hscientific⟩ := magnitude_text rank
    refine ⟨rank, d, _, hrank, hrank ▸ value_of_bits bits, hshortest, ?_, ?_, hpositional, hscientific⟩
    · rw [hbits]
      by_cases hsign : 2 ^ 63 ≤ bits.toNat <;>
        simp [Number.text, Number.chars, Layout.chars, Layout.sign]
    · constructor
      · intro hno
        by_contra hnot
        exact hno (hscientific hnot).exponent
      · intro h
        exact (hpositional h).no_exponent fun c => Script.isDigit_of_mem_digitsOf
  · intro bits bits' h h' htext
    exact ofBits_injective h h' (text_injective htext)

/-- The least double has an exponent, and the two zeros have different texts. -/
theorem least_double_and_zeros_text :
    (∃ d : Decimal, d.IsShortest 1 ∧ (Number.real (ofBits 1)).text = "5e-324" ∧
      Scientific (Layout.digitsOf d.digits) d.exponent "5e-324".toList) ∧
    (Number.real (ofBits 0)).text ≠ (Number.real (ofBits 0x8000000000000000)).text := by
  obtain ⟨hfinite, hdistinct⟩ := number_text_shortest
  constructor
  · obtain ⟨rank, d, body, rfl, _, hshortest, htext, _, _, hscientific⟩ := hfinite 1 (by decide)
    have hleast : (Number.real (ofBits 1)).text = "5e-324" := by decide +kernel
    have hbody : body = "5e-324".toList := by
      rw [← hleast, htext]
      simp
    refine ⟨d, hshortest, hleast, hbody ▸ hscientific ?_⟩
    rw [isPositional_iff (by decide)]
    decide
  · intro htext
    exact absurd (hdistinct 0 0x8000000000000000 (.inl (by decide)) (.inl (by decide)) htext) (by decide)

/-- The double nearest to 10^-6 is below it and written without an exponent all the same. -/
theorem below_millionth_without_exponent :
    (Number.real (ofBits 0x3eb0c6f7a0b5ed8d)).text = "0.000001" ∧
      ¬(exactMagnitude 0x3eb0c6f7a0b5ed8d = 0 ∨
        10 ^ (-6 : ℤ) ≤ exactMagnitude 0x3eb0c6f7a0b5ed8d ∧ exactMagnitude 0x3eb0c6f7a0b5ed8d < 10 ^ 21) := by
  have hvalue : exactMagnitude 0x3eb0c6f7a0b5ed8d = value millionth := (value_of_bits _).symm
  refine ⟨by decide +kernel, ?_⟩
  rw [hvalue]
  rintro (hzero | ⟨hle, _⟩)
  · have hpos : value 0 < value millionth := value_strictMono (by decide)
    have := value_nonneg 0
    linarith
  · exact absurd millionth_between.1 (not_lt.mpr hle)

end Double

end ConfigModules
