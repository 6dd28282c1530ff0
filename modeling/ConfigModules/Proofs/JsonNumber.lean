import ConfigModules.Proofs.Double.Shortness
import ConfigModules.Proofs.DocumentTree
import ConfigModules.Proofs.Yaml.JsonNumber

/-! The numbers of JSON as sources of their own. A number decodes as the double nearest to it, and as exactly
itself where 64 bits hold it, with two exceptions: an integer that needs more bits but no more than 128 is
refused, and a number that overflows is text. -/
namespace ConfigModules

open Yaml (JsonNumber IsWord Tree Document ScalarFault)

/-! ## Rounding a decimal -/

theorem Decimal.value_eq_quotient (x : Decimal) :
    x.value = (x.digits * 10 ^ x.exponent.toNat : ℕ) / (10 ^ (-x.exponent).toNat : ℕ) := by
  rcases Int.le_total 0 x.exponent with h | h
  · obtain ⟨k, hk⟩ := Int.eq_ofNat_of_zero_le h
    simp [value, hk]
  · obtain ⟨k, hk⟩ := Int.eq_ofNat_of_zero_le (Int.neg_nonneg_of_nonpos h)
    have hexponent : x.exponent = -(k : ℤ) := by omega
    simp [value, hexponent, div_eq_mul_inv]

/-- A decimal becomes the double of the rank that its value rounds to. -/
theorem Decimal.toDouble_spec (negative : Bool) (x : Decimal) :
    ∃ rank, Double.RoundsTo x.value rank ∧ x.toDouble negative = Double.ofRank negative rank := by
  refine ⟨_, ?_, Double.ofDecimal_eq_ofQuotient negative x.digits x.exponent⟩
  rw [value_eq_quotient]
  exact Double.roundsTo_nearestRank _ (Nat.pow_pos (by decide))

/-! ## A source of one word -/

theorem hasContent_word {w : List Char} (h : IsWord w) : hasContent w = true := by
  have hdigit : ∀ c : Char, c.isDigit = true → isWhitespace c = false := by
    intro c hc
    refine Script.forall_digit hc ?_
    decide +kernel
  rcases h.start with ⟨c, cs, rfl, hc⟩ | ⟨c, cs, rfl, _⟩
  · have hmark : c ≠ Yaml.byteOrderMark := Yaml.ne_of_isDigit hc (by decide)
    have hcomment : c ≠ '#' := Yaml.ne_of_isDigit hc (by decide)
    have hline : c ≠ '\n' := by
      rintro rfl
      exact absurd hc (by decide)
    simp [hasContent, hasContentFrom, hmark, hcomment, hline, hdigit c hc]
  · rfl

section

variable {w : List Char} (h : IsWord w) (mergeKeys : Bool)
include h

theorem documentsOf_word : documentsOf (String.ofList w) = [Document.ofPlain (String.ofList w)] := by
  have hchars : (String.ofList w).toList = w := String.toList_ofList
  rw [documentsOf, hchars, if_pos (hasContent_word h), Document.ofSource_word h]

theorem decode_word_error {e : ScalarFault} (hplain : Yaml.Resolution.plain (String.ofList w) = .error e) :
    decode ⟨.reject, mergeKeys⟩ (String.ofList w) =
      .error (.malformed (.node [] Yaml.Mark.start (.scalar e))) := by
  have htree := Document.tree_ofPlain (String.ofList w)
  rw [hplain] at htree
  have hload : loadTree mergeKeys (Document.ofPlain (String.ofList w)) =
      .error (.node [] Yaml.Mark.start (.scalar e)) := by
    rw [loadTree, htree]
    rfl
  rw [decode_eq, documentsOf_word h, loadTrees, hload]

/-- A word that resolves to a tree without mappings has the value of the tree. -/
theorem decode_word {t : Tree} {v : Value} (hplain : Yaml.Resolution.plain (String.ofList w) = .ok t)
    (hmerged : t.merged = .ok t) (hvalue : t.toValue = .ok v) :
    decode ⟨.reject, mergeKeys⟩ (String.ofList w) = .ok v := by
  have htree := Document.tree_ofPlain (String.ofList w)
  rw [hplain] at htree
  refine decode_single (documentsOf_word h) ?_ (documentValue_ok_iff.mpr hvalue)
  rw [loadTree, htree]
  cases mergeKeys with
  | false => rfl
  | true => simp [Except.mapError, hmerged]

end

/-! ## What a number spells -/

namespace Yaml.JsonNumber

/-- The double nearest to a number, with its sign; it is infinite where the number overflows. -/
def IsNearest (t : JsonNumber) (x : Double) : Prop :=
  ∃ rank, Double.RoundsTo t.decimal.value rank ∧ x = Double.ofRank t.negative rank

/-- The value of the digits before the point, with the sign. -/
def integer (t : JsonNumber) : ℤ := if t.negative then -(digitsValue t.whole : ℤ) else digitsValue t.whole

/-- An integer that 128 bits hold and 64 do not. -/
def IsWide (t : JsonNumber) : Prop :=
  t.IsInteger ∧ ((2 ^ 64 ≤ t.integer ∧ t.integer < 2 ^ 128) ∨ (-2 ^ 127 ≤ t.integer ∧ t.integer < -2 ^ 63))

/-- A number so far from zero that the nearest double is infinite. -/
def Overflows (t : JsonNumber) : Prop := t.IsNearest (.infinite t.negative)

/-- An integer of 64 bits, but not zero with a minus. -/
def IsExact (t : JsonNumber) : Prop :=
  t.IsInteger ∧ -2 ^ 63 ≤ t.integer ∧ t.integer < 2 ^ 64 ∧ (t.negative = true → t.integer ≠ 0)

/-- A number that a text of JSON is read as: it is as near as a double can be, and an integer of 64 bits is
kept to the digit, in the form for its sign. -/
structure Denotes (t : JsonNumber) (n : Number) : Prop where
  nearest : ∃ x, t.IsNearest x ∧ n.asDouble.numericallyEqual x = true
  exact : t.IsExact → n.text = t.text ∧
    if t.negative then ∃ i, n = .signed i else ∃ u, n = .unsigned u

theorem isNearest_toDouble (t : JsonNumber) : t.IsNearest (t.decimal.toDouble t.negative) :=
  Decimal.toDouble_spec t.negative t.decimal

theorem IsNearest.unique {t : JsonNumber} {x y : Double} (hx : t.IsNearest x) (hy : t.IsNearest y) : x = y := by
  obtain ⟨rank, hrank, rfl⟩ := hx
  obtain ⟨rank', hrank', rfl⟩ := hy
  rw [hrank.unique hrank']

theorem IsNearest.equals_self {t : JsonNumber} {x : Double} (h : t.IsNearest x) : x.numericallyEqual x = true := by
  obtain ⟨rank, _, rfl⟩ := h
  rw [Double.ofRank]
  split_ifs <;> simp [Double.numericallyEqual]

theorem overflows_iff (t : JsonNumber) : t.Overflows ↔ t.decimal.toDouble t.negative = .infinite t.negative := by
  refine ⟨fun h => t.isNearest_toDouble.unique h, fun h => ?_⟩
  rw [Overflows, ← h]
  exact t.isNearest_toDouble

/-- A number overflows from half a gap past the greatest double on. -/
theorem overflows_iff_le (t : JsonNumber) : t.Overflows ↔ 2 ^ 1024 - 2 ^ 970 ≤ t.decimal.value := by
  obtain ⟨rank, hrank, hdouble⟩ := Decimal.toDouble_spec t.negative t.decimal
  rw [overflows_iff, hdouble, ← hrank.finiteCount_le_iff, Double.ofRank]
  split_ifs with h
  · simp [Nat.not_le.mpr h]
  · simp [Nat.not_lt.mp h]

/-- Without an overflow the nearest double is finite. -/
theorem finite_or_overflows (t : JsonNumber) :
    t.Overflows ∨ ∃ rank, t.decimal.toDouble t.negative = .finite t.negative rank := by
  obtain ⟨rank, _, hdouble⟩ := Decimal.toDouble_spec t.negative t.decimal
  rw [overflows_iff, hdouble, Double.ofRank]
  split_ifs with h
  · exact .inr ⟨⟨rank, h⟩, rfl⟩
  · exact .inl rfl

/-! ## Integers -/

variable {t : JsonNumber}

theorem decimal_of_isInteger (h : t.IsInteger) : t.decimal = ⟨digitsValue t.whole, 0⟩ := by
  simp [decimal, h.1, h.2]

theorem digitsOf_whole (t : JsonNumber) : Layout.digitsOf (digitsValue t.whole) = t.whole :=
  Script.digitsOf_digitsValue t.whole_digits t.whole_start

theorem chars_of_isInteger (h : t.IsInteger) :
    t.chars = Layout.sign t.negative ++ Layout.digitsOf (digitsValue t.whole) := by
  have htail : t.tail = [] := by simp [tail, h.1, h.2, exponentChars, Script.DecimalNumeral.fractionChars]
  rw [chars, magnitudeChars, htail, List.append_nil, digitsOf_whole]

theorem toDouble_of_isInteger (h : t.IsInteger) :
    t.decimal.toDouble t.negative = Double.ofQuotient t.negative (digitsValue t.whole) 1 := by
  rw [decimal_of_isInteger h, Decimal.toDouble, Double.ofDecimal_eq_ofQuotient]
  simp

/-- An integer resolves to a number that it denotes where 64 bits hold it. -/
theorem unsigned_denoted (h : t.IsInteger) (hsign : t.negative = false) (hlt : digitsValue t.whole < 2 ^ 64) :
    t.Denotes (.unsigned (UInt64.ofNat (digitsValue t.whole))) := by
  have hvalue : (UInt64.ofNat (digitsValue t.whole)).toNat = digitsValue t.whole := UInt64.toNat_ofNat_of_lt hlt
  have hdouble := toDouble_of_isInteger h
  have hnearest := t.isNearest_toDouble
  refine ⟨⟨_, hnearest, ?_⟩, fun _ => ⟨?_, ?_⟩⟩
  · have hsame : (Number.unsigned (UInt64.ofNat (digitsValue t.whole))).asDouble =
        t.decimal.toDouble t.negative := by
      rw [hdouble, hsign, Number.asDouble, hvalue, Double.ofNat]
    rw [hsame]
    exact hnearest.equals_self
  · rw [Number.text, text, chars_of_isInteger h, hsign, Number.chars, hvalue]
    rfl
  · rw [hsign]
    exact ⟨_, rfl⟩

theorem signed_denoted (h : t.IsInteger) (hsign : t.negative = true) (hpos : digitsValue t.whole ≠ 0)
    (hle : digitsValue t.whole ≤ 2 ^ 63) : t.Denotes (.signed (Int64.ofInt (-(digitsValue t.whole : ℤ)))) := by
  have hvalue : (Int64.ofInt (-(digitsValue t.whole : ℤ))).toInt = -(digitsValue t.whole : ℤ) :=
    Int64.toInt_ofInt_of_le (by omega) (by omega)
  have hdouble := toDouble_of_isInteger h
  have hnearest := t.isNearest_toDouble
  have hneg : decide (-(digitsValue t.whole : ℤ) < 0) = true := by
    rw [decide_eq_true_iff]
    omega
  refine ⟨⟨_, hnearest, ?_⟩, fun _ => ⟨?_, ?_⟩⟩
  · have hsame : (Number.signed (Int64.ofInt (-(digitsValue t.whole : ℤ)))).asDouble =
        t.decimal.toDouble t.negative := by
      rw [hdouble, hsign, Number.asDouble, hvalue, Double.ofInt, hneg, Int.natAbs_neg, Int.natAbs_natCast]
    rw [hsame]
    exact hnearest.equals_self
  · rw [Number.text, text, chars_of_isInteger h, hsign, Number.chars, hvalue, Number.integerChars, hneg,
      Int.natAbs_neg, Int.natAbs_natCast]
  · rw [hsign]
    exact ⟨_, rfl⟩

/-- Zero loses its minus, which no comparison of numbers tells. -/
theorem zero_denoted (h : t.IsInteger) (hsign : t.negative = true) (hzero : digitsValue t.whole = 0) :
    t.Denotes (.unsigned 0) := by
  have hdouble := toDouble_of_isInteger h
  rw [hsign, hzero, Double.ofQuotient_zero true Nat.one_pos] at hdouble
  refine ⟨⟨_, t.isNearest_toDouble, ?_⟩, ?_⟩
  · have hplus : (Number.unsigned 0).asDouble = Double.signedZero false := by
      rw [Number.asDouble, UInt64.toNat_zero, Double.ofNat, Double.ofQuotient_zero false Nat.one_pos]
    rw [hsign, hdouble, hplus]
    rfl
  · rintro ⟨_, _, _, hne⟩
    have hinteger : t.integer = 0 := by simp [integer, hzero]
    exact absurd hinteger (hne hsign)

/-- No integer of 128 bits overflows. -/
theorem not_overflows (h : t.IsInteger) (hle : digitsValue t.whole ≤ 2 ^ 128) : ¬t.Overflows := by
  have hvalue : t.decimal.value = digitsValue t.whole := by simp [decimal_of_isInteger h, Decimal.value]
  have hgap : 2 ^ 128 + 2 ^ 970 < 2 ^ 1024 := by decide +kernel
  have hbelow : ((digitsValue t.whole + 2 ^ 970 : ℕ) : ℚ) < (2 ^ 1024 : ℕ) :=
    Nat.cast_lt.mpr (Nat.lt_of_le_of_lt (Nat.add_le_add_right hle _) hgap)
  rw [Nat.cast_add, Nat.cast_pow, Nat.cast_pow, Nat.cast_ofNat] at hbelow
  rw [overflows_iff_le, hvalue, not_le]
  exact lt_sub_iff_add_lt.mpr hbelow

/-- What becomes of an integer by its size: it is refused, kept, or left to the doubles. -/
inductive Settled (t : JsonNumber) : Option (Except ScalarFault Tree) → Prop
  | refused (h : t.IsWide) : Settled t (some (.error (.wideInteger t.integer)))
  | kept {n : Number} (hwide : ¬t.IsWide) (hfinite : ¬t.Overflows) (h : t.Denotes n) :
      Settled t (some (.ok (.number n)))
  | left (hwide : ¬t.IsWide) (hexact : ¬t.IsExact) : Settled t none

theorem not_overflows_of_isWide (h : t.IsWide) : ¬t.Overflows := by
  obtain ⟨hinteger, hrange⟩ := h
  refine not_overflows hinteger ?_
  rw [integer] at hrange
  split_ifs at hrange <;> omega

theorem settled_ofInteger (h : t.IsInteger) :
    t.Settled (Resolution.ofInteger t.negative (digitsValue t.whole)) := by
  have hpow : Nat.pow 2 63 = 2 ^ 63 ∧ Nat.pow 2 64 = 2 ^ 64 ∧ Nat.pow 2 127 = 2 ^ 127 ∧
    Nat.pow 2 128 = 2 ^ 128 := ⟨rfl, rfl, rfl, rfl⟩
  rw [Resolution.ofInteger, hpow.1, hpow.2.1, hpow.2.2.1, hpow.2.2.2]
  cases hsign : t.negative with
  | false =>
    have hinteger : t.integer = digitsValue t.whole := by simp [integer, hsign]
    have hwide : t.IsWide ↔ 2 ^ 64 ≤ digitsValue t.whole ∧ digitsValue t.whole < 2 ^ 128 := by
      simp only [IsWide, hinteger, h, true_and]
      omega
    rw [if_neg Bool.false_ne_true]
    split_ifs with hsmall hmedium
    · exact .kept (hwide.not.mpr (by omega)) (not_overflows h (by omega)) (unsigned_denoted h hsign hsmall)
    · rw [← hinteger]
      exact .refused (hwide.mpr (by omega))
    · refine .left (hwide.not.mpr (by omega)) ?_
      rintro ⟨_, _, hhigh, _⟩
      omega
  | true =>
    have hinteger : t.integer = -(digitsValue t.whole : ℤ) := by simp [integer, hsign]
    have hwide : t.IsWide ↔ 2 ^ 63 < digitsValue t.whole ∧ digitsValue t.whole ≤ 2 ^ 127 := by
      simp only [IsWide, hinteger, h, true_and]
      omega
    rw [if_pos rfl]
    split_ifs with hzero hsmall hmedium
    · exact .kept (hwide.not.mpr (by omega)) (not_overflows h (by omega)) (zero_denoted h hsign hzero)
    · exact .kept (hwide.not.mpr (by omega)) (not_overflows h (by omega)) (signed_denoted h hsign hzero hsmall)
    · rw [← hinteger]
      exact .refused (hwide.mpr (by omega))
    · refine .left (hwide.not.mpr (by omega)) ?_
      rintro ⟨_, hlow, _, _⟩
      omega

end Yaml.JsonNumber

/-! ## Decoding a number -/

section

variable (mergeKeys : Bool) {t : JsonNumber}

theorem decode_wide (h : t.IsWide) : decode ⟨.reject, mergeKeys⟩ t.text =
    .error (.malformed (.node [] Yaml.Mark.start (.scalar (.wideInteger t.integer)))) := by
  have hplain := t.plain_text
  have hsettled := Yaml.JsonNumber.settled_ofInteger h.1
  rw [if_pos h.1] at hplain
  generalize Yaml.Resolution.ofInteger t.negative (digitsValue t.whole) = r at hplain hsettled
  cases hsettled with
  | refused _ => exact decode_word_error t.isWord mergeKeys hplain
  | kept hwide _ _ => exact absurd h hwide
  | left hwide _ => exact absurd h hwide

/-- A number that is left to the doubles is the nearest one, or text if there is none. -/
theorem decode_left (hexact : ¬t.IsExact)
    (hplain : Yaml.Resolution.plain t.text = match t.decimal.toDouble t.negative with
      | .finite n r => .ok (.number (.real (.finite n r)))
      | _ => .ok (.string t.text)) :
    (t.Overflows ∧ decode ⟨.reject, mergeKeys⟩ t.text = .ok (.string t.text)) ∨
      ¬t.Overflows ∧ ∃ n, decode ⟨.reject, mergeKeys⟩ t.text = .ok (.number n) ∧ t.Denotes n := by
  rcases t.finite_or_overflows with hover | ⟨rank, hfinite⟩
  · rw [t.overflows_iff.mp hover] at hplain
    exact .inl ⟨hover, decode_word t.isWord mergeKeys hplain rfl rfl⟩
  · have hnot : ¬t.Overflows := by
      rw [Yaml.JsonNumber.overflows_iff, hfinite]
      exact Double.noConfusion
    have hnearest := t.isNearest_toDouble
    rw [hfinite] at hplain hnearest
    refine .inr ⟨hnot, _, decode_word t.isWord mergeKeys hplain rfl (Yaml.Tree.toValue_number _), ⟨_, hnearest, ?_⟩, ?_⟩
    · exact hnearest.equals_self
    · exact fun h => absurd h hexact

theorem decode_not_wide (h : ¬t.IsWide) :
    (t.Overflows ∧ decode ⟨.reject, mergeKeys⟩ t.text = .ok (.string t.text)) ∨
      ¬t.Overflows ∧ ∃ n, decode ⟨.reject, mergeKeys⟩ t.text = .ok (.number n) ∧ t.Denotes n := by
  have hplain := t.plain_text
  by_cases hinteger : t.IsInteger
  · have hsettled := Yaml.JsonNumber.settled_ofInteger hinteger
    rw [if_pos hinteger] at hplain
    generalize Yaml.Resolution.ofInteger t.negative (digitsValue t.whole) = r at hplain hsettled
    cases hsettled with
    | refused hwide => exact absurd hwide h
    | kept _ hfinite hdenotes =>
      exact .inr ⟨hfinite, _, decode_word t.isWord mergeKeys hplain rfl (Yaml.Tree.toValue_number _), hdenotes⟩
    | left _ hexact => exact decode_left mergeKeys hexact hplain
  · rw [if_neg hinteger] at hplain
    exact decode_left mergeKeys (fun hexact => hinteger hexact.1) hplain

end

/-- A number of JSON decodes as the number it denotes, unless it is an integer of more than 64 bits and no more
than 128, which is refused, or overflows, which makes it text. -/
theorem json_numbers_decode (mergeKeys : Bool) (t : JsonNumber) :
    ((∃ n, decode ⟨.reject, mergeKeys⟩ t.text = .ok (.number n) ∧ t.Denotes n) ↔
      ¬t.IsWide ∧ ¬t.Overflows) ∧
    (decode ⟨.reject, mergeKeys⟩ t.text =
        .error (.malformed (.node [] Yaml.Mark.start (.scalar (.wideInteger t.integer)))) ↔ t.IsWide) ∧
    (decode ⟨.reject, mergeKeys⟩ t.text = .ok (.string t.text) ↔ t.Overflows) ∧
    (t.Overflows ↔ 2 ^ 1024 - 2 ^ 970 ≤ t.decimal.value) := by
  rw [← t.overflows_iff_le]
  by_cases hwide : t.IsWide
  · have hfinite := Yaml.JsonNumber.not_overflows_of_isWide hwide
    simp [decode_wide mergeKeys hwide, hwide, hfinite]
  · rcases decode_not_wide mergeKeys hwide with ⟨hover, htext⟩ | ⟨hfinite, n, hnumber, hdenotes⟩
    · simp [htext, hwide, hover]
    · simp [hnumber, hwide, hfinite, hdenotes]

/-- A natural number as a number of JSON. -/
def Yaml.JsonNumber.ofNat (n : ℕ) : JsonNumber where
  negative := false
  whole := (Script.DecimalNumeral.ofNat n).whole
  fraction := (Script.DecimalNumeral.ofNat n).fraction
  exponent := none
  whole_digits := (Script.DecimalNumeral.ofNat n).whole_digits
  whole_start := (Script.DecimalNumeral.ofNat n).whole_start
  fraction_digits := (Script.DecimalNumeral.ofNat n).fraction_digits

/-- The least integer past 64 bits is refused, though a double is equal to it, and a great power of ten is text. -/
theorem wide_integer_refused :
    (JsonNumber.ofNat (2 ^ 64)).text = "18446744073709551616" ∧
    decode {} "18446744073709551616" =
      .error (.malformed (.node [] Yaml.Mark.start (.scalar (.wideInteger 18446744073709551616)))) ∧
    decode {} "1e999" = .ok (.string "1e999") ∧
    ¬ ∀ t : JsonNumber, ∃ n, decode {} t.text = .ok (.number n) ∧ t.Denotes n := by
  have htext : (JsonNumber.ofNat (2 ^ 64)).text = "18446744073709551616" := rfl
  have hrefused : decode {} "18446744073709551616" =
      .error (.malformed (.node [] Yaml.Mark.start (.scalar (.wideInteger 18446744073709551616)))) := rfl
  refine ⟨htext, hrefused, rfl, fun h => ?_⟩
  obtain ⟨n, hnumber, _⟩ := h (JsonNumber.ofNat (2 ^ 64))
  rw [htext, hrefused] at hnumber
  cases hnumber

end ConfigModules
