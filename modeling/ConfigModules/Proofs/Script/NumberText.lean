import ConfigModules.Number
import ConfigModules.Script.NumberText
import ConfigModules.Proofs.Double.Shortest
import Mathlib.Data.Bool.AllAny

/-! Decimal numerals of a script. Every text that a number of a document gets, its sign and its
words apart, is a decimal numeral, and the reader of numerals finds its double. -/
namespace ConfigModules.Script

/-- What stands after a literal or a key in the text of a value. -/
def separators : List Char := [' ', ',', ';', ':', ']']

/-- A continuation that begins with a separator. -/
def Parted : List Char → Prop
  | [] => False
  | c :: _ => c ∈ separators

theorem Parted.head {rest : List Char} (h : Parted rest) : ∃ c cs, rest = c :: cs ∧ c ∈ separators := by
  cases rest with
  | nil => exact h.elim
  | cons c cs => exact ⟨c, cs, rfl, h⟩

/-- A decimal numeral by its parts. A zero begins its digits only if it is the only one before the
point. -/
structure DecimalNumeral where
  whole : List Char
  fraction : List Char
  /-- Whether the exponent is negative, and its digits. -/
  exponent : Option (Bool × List Char)
  whole_digits : ∀ c ∈ whole, c.isDigit
  whole_start : whole = ['0'] ∨ ∃ c cs, whole = c :: cs ∧ c ≠ '0'
  fraction_digits : ∀ c ∈ fraction, c.isDigit
  exponent_digits : ∀ e ∈ exponent, e.2 ≠ [] ∧ ∀ c ∈ e.2, c.isDigit

namespace DecimalNumeral

def fractionChars : List Char → List Char
  | [] => []
  | c :: cs => '.' :: c :: cs

def exponentChars : Option (Bool × List Char) → List Char
  | none => []
  | some (negative, ds) => 'e' :: (if negative then '-' else '+') :: ds

def chars (d : DecimalNumeral) : List Char :=
  d.whole ++ fractionChars d.fraction ++ exponentChars d.exponent

theorem chars_start (d : DecimalNumeral) : ∃ c cs, d.chars = c :: cs ∧ c.isDigit = true := by
  have hdigits := d.whole_digits
  rcases d.whole_start with h | ⟨c, cs, h, _⟩
  · exact ⟨'0', _, by rw [chars, h]; rfl, rfl⟩
  · exact ⟨c, _, by rw [chars, h]; rfl, hdigits c (h ▸ List.mem_cons_self)⟩

/-- The power of ten that the exponent spells. -/
def power : Option (Bool × List Char) → Int
  | none => 0
  | some (negative, ds) => if negative then -(digitsValue ds : Int) else digitsValue ds

def double (d : DecimalNumeral) : Double :=
  Double.ofDecimal false (digitsValue (d.whole ++ d.fraction)) (power d.exponent - d.fraction.length)

end DecimalNumeral

/-- No digit, and no underscore that would part digits, comes next. -/
def EndsDigits (rest : List Char) : Prop := ∀ c ∈ rest.head?, c.isDigit = false ∧ c ≠ '_'

theorem endsDigits_cons {c : Char} {cs : List Char} (hd : c.isDigit = false) (hu : c ≠ '_') :
    EndsDigits (c :: cs) := by
  intro x hx
  obtain rfl : c = x := by simpa using hx
  exact ⟨hd, hu⟩

theorem Parted.endsDigits {rest : List Char} (h : Parted rest) : EndsDigits rest := by
  obtain ⟨c, cs, rfl, hc⟩ := h.head
  have hall : ∀ c ∈ separators, c.isDigit = false ∧ c ≠ '_' :=
    List.all_iff_forall_prop.mp (by decide)
  exact endsDigits_cons (hall c hc).1 (hall c hc).2

theorem partedDigits?_after {ds rest : List Char} (taken : List Char) (hds : ∀ c ∈ ds, c.isDigit)
    (hrest : EndsDigits rest) :
    partedDigits? Char.isDigit true taken (ds ++ rest) = some (taken.reverse ++ ds, rest) := by
  induction ds generalizing taken with
  | nil =>
    cases rest with
    | nil => simp [partedDigits?]
    | cons c cs =>
      obtain ⟨hd, hu⟩ := hrest c rfl
      simp [partedDigits?, hd, hu]
  | cons c cs ih =>
    have hc : c.isDigit = true := hds c List.mem_cons_self
    have htail := ih (c :: taken) fun x hx => hds x (List.mem_cons_of_mem c hx)
    simpa [partedDigits?, hc] using htail

theorem partedDigits?_append {ds rest : List Char} (hne : ds ≠ []) (hds : ∀ c ∈ ds, c.isDigit)
    (hrest : EndsDigits rest) :
    partedDigits? Char.isDigit false [] (ds ++ rest) = some (ds, rest) := by
  cases ds with
  | nil => exact absurd rfl hne
  | cons c cs =>
    have hc : c.isDigit = true := hds c List.mem_cons_self
    have htail := partedDigits?_after [c] (fun x hx => hds x (List.mem_cons_of_mem c hx)) hrest
    simpa [partedDigits?, hc] using htail

namespace NumberText
open DecimalNumeral

theorem exponentChars_head (e : Option (Bool × List Char)) {rest : List Char} (hrest : Parted rest) :
    ∃ c cs, exponentChars e ++ rest = c :: cs ∧ c ∈ 'e' :: separators := by
  cases e with
  | some p => exact ⟨_, _, rfl, List.mem_cons_self⟩
  | none =>
    obtain ⟨c, cs, rfl, hc⟩ := hrest.head
    exact ⟨c, cs, rfl, List.mem_cons_of_mem _ hc⟩

theorem fractionChars_head (fraction : List Char) (e : Option (Bool × List Char)) {rest : List Char}
    (hrest : Parted rest) : ∃ c cs, fractionChars fraction ++ (exponentChars e ++ rest) = c :: cs ∧
      c ∈ '.' :: 'e' :: separators := by
  cases fraction with
  | cons c cs => exact ⟨_, _, rfl, List.mem_cons_self⟩
  | nil =>
    obtain ⟨c, cs, hcs, hc⟩ := exponentChars_head e hrest
    exact ⟨c, cs, hcs, List.mem_cons_of_mem _ hc⟩

theorem exponent?_append {e : Option (Bool × List Char)} {rest : List Char}
    (he : ∀ p ∈ e, p.2 ≠ [] ∧ ∀ c ∈ p.2, c.isDigit) (hrest : Parted rest) :
    exponent? (exponentChars e ++ rest) = some (power e, rest) := by
  cases e with
  | none =>
    obtain ⟨c, cs, rfl, hc⟩ := hrest.head
    have hall : ∀ c ∈ separators, ¬(c = 'e' ∨ c = 'E') :=
      List.all_iff_forall_prop.mp (by decide)
    simp [exponentChars, exponent?, hall c hc, power]
  | some p =>
    obtain ⟨negative, ds⟩ := p
    obtain ⟨hne, hds⟩ := he (negative, ds) rfl
    have hread := partedDigits?_append hne hds hrest.endsDigits
    cases negative <;> simp [exponentChars, exponent?, hread, power]

theorem fraction?_append {whole fraction : List Char} {e : Option (Bool × List Char)}
    {rest : List Char} (hne : fraction ≠ []) (hds : ∀ c ∈ fraction, c.isDigit)
    (he : ∀ p ∈ e, p.2 ≠ [] ∧ ∀ c ∈ p.2, c.isDigit) (hrest : Parted rest) :
    fraction? whole (fraction ++ (exponentChars e ++ rest)) =
      some (.real (Double.ofDecimal false (digitsValue (whole ++ fraction))
        (power e - fraction.length)), rest) := by
  have hends : EndsDigits (exponentChars e ++ rest) := by
    obtain ⟨c, cs, hcs, hc⟩ := exponentChars_head e hrest
    have hall : ∀ c ∈ 'e' :: separators, c.isDigit = false ∧ c ≠ '_' :=
      List.all_iff_forall_prop.mp (by decide)
    exact hcs ▸ endsDigits_cons (hall c hc).1 (hall c hc).2
  have hdigits : optionalDigits? (fraction ++ (exponentChars e ++ rest)) =
      some (fraction, exponentChars e ++ rest) := by
    have hread := partedDigits?_append hne hds hends
    cases fraction with
    | nil => exact absurd rfl hne
    | cons c cs =>
      have hc : c.isDigit = true := hds c List.mem_cons_self
      simpa [optionalDigits?, hc] using hread
  simp [fraction?, hdigits, exponent?_append he hrest]

theorem afterWhole?_of_exponent {whole cs : List Char} {c : Char} (hpoint : c ≠ '.') (hsuffix : c ≠ 'n') :
    afterWhole? whole (c :: cs) = (exponent? (c :: cs)).map fun (e, rest) =>
      (.real (Double.ofDecimal false (digitsValue whole) e), rest) := by
  unfold afterWhole?
  split
  · rename_i h
    exact absurd (List.cons.inj h).1 hpoint
  · rename_i h
    exact absurd (List.cons.inj h).1 hsuffix
  · rfl

/-- The numeral from the end of its whole digits on. -/
theorem afterWhole?_append (d : DecimalNumeral) {rest : List Char} (hrest : Parted rest) :
    afterWhole? d.whole (fractionChars d.fraction ++ (exponentChars d.exponent ++ rest)) =
      some (.real d.double, rest) := by
  have hfraction := d.fraction_digits
  unfold double
  cases hf : d.fraction with
  | cons c cs =>
    rw [hf] at hfraction
    exact fraction?_append (List.cons_ne_nil c cs) hfraction d.exponent_digits hrest
  | nil =>
    have hexponent := exponent?_append d.exponent_digits hrest
    obtain ⟨c, cs, hcs, hc⟩ := exponentChars_head d.exponent hrest
    have hall : ∀ c ∈ 'e' :: separators, c ≠ '.' ∧ c ≠ 'n' :=
      List.all_iff_forall_prop.mp (by decide)
    rw [hcs] at hexponent
    simp [fractionChars, hcs, afterWhole?_of_exponent (hall c hc).1 (hall c hc).2, hexponent]

/-- The reader finds the double of a decimal numeral, and stops at the separator after it. -/
theorem read?_append (d : DecimalNumeral) {rest : List Char} (hrest : Parted rest) :
    read? (d.chars ++ rest) = some (.real d.double, rest) := by
  have hafter := afterWhole?_append d hrest
  obtain ⟨c, cs, hcs, hc⟩ := fractionChars_head d.fraction d.exponent hrest
  rw [chars, List.append_assoc, List.append_assoc]
  rw [hcs] at hafter ⊢
  have hall : ∀ c ∈ '.' :: 'e' :: separators, radix? c = none ∧ c.isDigit = false ∧ c ≠ '_' :=
    List.all_iff_forall_prop.mp (by decide)
  obtain ⟨hradix, hdigit, hunderscore⟩ := hall c hc
  rcases d.whole_start with hzero | ⟨x, xs, hx, hnonzero⟩
  · -- A lone zero is neither a radix mark nor padding.
    rw [hzero] at hafter ⊢
    simpa [read?, hradix, hdigit] using hafter
  · have hxdigit : x.isDigit = true := d.whole_digits x (hx ▸ List.mem_cons_self)
    have hpoint : x ≠ '.' := by
      rintro rfl
      exact absurd hxdigit (by decide)
    have hends : EndsDigits (c :: cs) := endsDigits_cons hdigit hunderscore
    have hdigits := partedDigits?_append (hx ▸ List.cons_ne_nil x xs) d.whole_digits hends
    rw [hx] at hafter hdigits ⊢
    rw [List.cons_append] at hdigits ⊢
    unfold read?
    split
    · rename_i h
      exact absurd (List.cons.inj h).1 hpoint
    · rename_i h
      exact absurd (List.cons.inj h).1 hnonzero
    · simpa [hdigits] using hafter

end NumberText

theorem digitsValue_eq (cs : List Char) : digitsValue cs = Nat.ofDigitChars 10 cs 0 := by
  have hstep : (fun n c => n * 10 + digitValue c) = fun n c => 10 * n + (c.toNat - '0'.toNat) := by
    funext n c
    rw [Nat.mul_comm]
    rfl
  rw [digitsValue, hstep, Nat.ofDigitChars_eq_foldl]

theorem digitsValue_digitsOf (n : Nat) : digitsValue (Layout.digitsOf n) = n := by
  rw [digitsValue_eq]
  exact Nat.ofDigitChars_ten_toDigits

@[elab_as_elim] theorem forall_digit {p : Char → Prop} {c : Char} (hc : c.isDigit = true)
    (h : ∀ n < 10, p (Char.ofNat (48 + n))) : p c := by
  obtain ⟨hlow, hhigh⟩ := Char.isDigit_iff_toNat.mp hc
  have hzero : '0'.toNat = 48 := rfl
  have hnine : '9'.toNat = 57 := rfl
  have hp := h (c.toNat - 48) (by omega)
  rwa [show 48 + (c.toNat - 48) = c.toNat by omega, Char.ofNat_toNat] at hp

theorem digitChar_digitValue {c : Char} (h : c.isDigit = true) :
    digitValue c < 10 ∧ (digitValue c).digitChar = c := by
  refine forall_digit h ?_
  decide

theorem digitsOf_append {n : Nat} (hn : 0 < n) {ds : List Char} (hds : ∀ c ∈ ds, c.isDigit) :
    Layout.digitsOf (ds.foldl (fun n c => n * 10 + digitValue c) n) = Layout.digitsOf n ++ ds := by
  induction ds generalizing n with
  | nil => simp
  | cons c cs ih =>
    obtain ⟨hc, hcs⟩ := List.forall_mem_cons.mp hds
    obtain ⟨hlt, hchar⟩ := digitChar_digitValue hc
    have hstep : Layout.digitsOf (n * 10 + digitValue c) = Layout.digitsOf n ++ [c] := by
      have hlast : Nat.toDigits 10 (digitValue c) = [c] := by rw [Nat.toDigits_of_lt_base hlt, hchar]
      rw [Layout.digitsOf, Nat.mul_comm, ← Nat.toDigits_append_toDigits (by decide) hn hlt, hlast]
      rfl
    rw [List.foldl_cons, ih (by omega) hcs, hstep, List.append_assoc, List.singleton_append]

/-- Digits without a needless leading zero are those of their value. -/
theorem digitsOf_digitsValue {ds : List Char} (hds : ∀ c ∈ ds, c.isDigit)
    (hstart : ds = ['0'] ∨ ∃ c cs, ds = c :: cs ∧ c ≠ '0') : Layout.digitsOf (digitsValue ds) = ds := by
  rcases hstart with rfl | ⟨c, cs, rfl, hne⟩
  · rfl
  · obtain ⟨hc, hcs⟩ := List.forall_mem_cons.mp hds
    obtain ⟨hlt, hchar⟩ := digitChar_digitValue hc
    have hpos : 0 < digitValue c := by
      refine Nat.pos_of_ne_zero fun hzero => hne ?_
      rw [← hchar, hzero]
      rfl
    have hfirst : Layout.digitsOf (digitValue c) = [c] := by
      rw [Layout.digitsOf, Nat.toDigits_of_lt_base hlt, hchar]
    have hvalue : digitsValue (c :: cs) = cs.foldl (fun n c => n * 10 + digitValue c) (digitValue c) := by
      rw [digitsValue, List.foldl_cons, Nat.zero_mul, Nat.zero_add]
    rw [hvalue, digitsOf_append hpos hcs, hfirst]
    rfl

theorem digitsValue_zeros_append (k : Nat) (ds : List Char) :
    digitsValue (Layout.zeros k ++ ds) = digitsValue ds := by
  simp [digitsValue_eq, Layout.zeros, Nat.ofDigitChars_append]

theorem digitsValue_append_zeros (ds : List Char) (k : Nat) :
    digitsValue (ds ++ Layout.zeros k) = digitsValue ds * 10 ^ k := by
  simp [digitsValue_eq, Layout.zeros, Nat.ofDigitChars_append, Nat.mul_comm]

theorem isDigit_of_mem_digitsOf {n : Nat} {c : Char} (h : c ∈ Layout.digitsOf n) : c.isDigit :=
  Nat.isDigit_of_mem_toDigits (by decide) (by decide) h

theorem isDigit_of_mem_zeros {k : Nat} {c : Char} (h : c ∈ Layout.zeros k) : c.isDigit := by
  rw [List.eq_of_mem_replicate h]
  rfl

/-- Digits of a number begin with a zero only if they spell zero. -/
theorem digitsOf_start (n : Nat) (h : n ≠ 0) : ∃ c cs, Layout.digitsOf n = c :: cs ∧ c ≠ '0' := by
  induction n using Nat.base_induction 10 (by decide) with
  | single m hm =>
    refine ⟨m.digitChar, [], Nat.toDigits_of_lt_base hm, ?_⟩
    have hall : ∀ m < 10, m ≠ 0 → m.digitChar ≠ '0' := by decide
    exact hall m hm h
  | digit m k hk hm ih =>
    obtain ⟨c, cs, hcs, hc⟩ := ih (Nat.ne_of_gt hm)
    refine ⟨c, cs ++ Layout.digitsOf k, ?_, hc⟩
    rw [Layout.digitsOf, ← Nat.toDigits_append_toDigits (by decide) hm hk]
    exact congrArg (· ++ Layout.digitsOf k) hcs

namespace DecimalNumeral

def ofNat (n : Nat) : DecimalNumeral where
  whole := Layout.digitsOf n
  fraction := []
  exponent := none
  whole_digits _ := isDigit_of_mem_digitsOf
  whole_start := by
    by_cases h : n = 0
    · exact .inl (h ▸ rfl)
    · exact .inr (digitsOf_start n h)
  fraction_digits := by simp
  exponent_digits := by simp

theorem chars_ofNat (n : Nat) : (ofNat n).chars = Layout.digitsOf n := by
  simp [chars, ofNat, fractionChars, exponentChars]

theorem double_ofNat (n : Nat) : (ofNat n).double = Double.ofNat n := by
  simp [double, ofNat, power, digitsValue_digitsOf, Double.ofDecimal_eq_ofQuotient, Double.ofNat]

theorem fractionChars_of_ne_nil {cs : List Char} (h : cs ≠ []) : fractionChars cs = '.' :: cs := by
  cases cs with
  | nil => exact absurd rfl h
  | cons c cs => rfl

/-- The two forms of a number in a script: at most 21 digits before the point, or one digit there
and an exponent that is below -6 or at least 21. -/
def InScriptForm (d : DecimalNumeral) : Prop :=
  match d.exponent with
  | none => d.whole.length ≤ 21
  | some e => d.whole.length = 1 ∧ (power (some e) < -6 ∨ 21 ≤ power (some e))

/-- What a numeral of a decimal has to be. -/
def Spells (d : DecimalNumeral) (x : Decimal) : Prop := d.double = x.toDouble false ∧ d.InScriptForm

theorem power_digitsOf (e : Int) : power (some (decide (e < 0), Layout.digitsOf e.natAbs)) = e := by
  by_cases h : e < 0
  · simp only [power, h, decide_true, if_true, digitsValue_digitsOf]
    omega
  · simp only [power, h, decide_false, Bool.false_eq_true, if_false, digitsValue_digitsOf]
    omega

theorem exponentChars_digitsOf (e : Int) :
    exponentChars (some (decide (e < 0), Layout.digitsOf e.natAbs)) = Layout.script.exponent e := by
  by_cases h : e < 0 <;> simp [exponentChars, Layout.exponent, Layout.script, h]

variable (x : Decimal) {n : Int} (hn : n = (Layout.digitsOf x.digits).length + x.exponent)
include hn

theorem exists_below_point (hlow : n ≤ 0) :
    ∃ d : DecimalNumeral, Layout.script.positional (Layout.digitsOf x.digits) n = d.chars ∧
      d.Spells x := by
  have hdigits : ∀ c ∈ Layout.zeros (-n).toNat ++ Layout.digitsOf x.digits, c.isDigit = true := by
    intro c hc
    rcases List.mem_append.mp hc with hc | hc
    · exact isDigit_of_mem_zeros hc
    · exact isDigit_of_mem_digitsOf hc
  have hne : Layout.zeros (-n).toNat ++ Layout.digitsOf x.digits ≠ [] :=
    List.append_ne_nil_of_right_ne_nil _ Nat.toDigits_ne_nil
  refine ⟨⟨['0'], Layout.zeros (-n).toNat ++ Layout.digitsOf x.digits, none, by simp, .inl rfl,
    hdigits, by simp⟩, ?_, ?_, (by decide : 1 ≤ 21)⟩
  · simp [Layout.positional, hlow, chars, fractionChars_of_ne_nil hne, exponentChars]
  · have hvalue : digitsValue (['0'] ++ (Layout.zeros (-n).toNat ++ Layout.digitsOf x.digits)) =
        x.digits := by
      rw [← List.append_assoc]
      exact (digitsValue_zeros_append ((-n).toNat + 1) _).trans (digitsValue_digitsOf _)
    have hexponent : (0 : Int) - (Layout.zeros (-n).toNat ++ Layout.digitsOf x.digits).length =
        x.exponent := by
      rw [List.length_append, Layout.zeros, List.length_replicate]
      omega
    rw [double, hvalue, power, hexponent]
    rfl

theorem exists_around_point (hx : x.digits ≠ 0) (hlow : 0 < n) (hhigh : n ≤ 21)
    (hinside : n.toNat < (Layout.digitsOf x.digits).length) :
    ∃ d : DecimalNumeral, Layout.script.positional (Layout.digitsOf x.digits) n = d.chars ∧
      d.Spells x := by
  obtain ⟨c, cs, hcs, hc⟩ := digitsOf_start x.digits hx
  obtain ⟨k, hk⟩ : ∃ k, n.toNat = k + 1 := ⟨n.toNat - 1, by omega⟩
  have hstart : (Layout.digitsOf x.digits).take n.toNat = c :: cs.take k := by
    rw [hcs, hk, List.take_succ_cons]
  have hne : (Layout.digitsOf x.digits).drop n.toNat ≠ [] := by
    rw [Ne, List.drop_eq_nil_iff]
    omega
  refine ⟨⟨(Layout.digitsOf x.digits).take n.toNat, (Layout.digitsOf x.digits).drop n.toNat, none,
    fun c hc => isDigit_of_mem_digitsOf (List.mem_of_mem_take hc), .inr ⟨c, _, hstart, hc⟩,
    fun c hc => isDigit_of_mem_digitsOf (List.mem_of_mem_drop hc), by simp⟩, ?_, ?_, ?_⟩
  · simp [Layout.positional, Int.not_le.mpr hlow, hinside, chars, fractionChars_of_ne_nil hne,
      exponentChars]
  · have hexponent : (0 : Int) - ((Layout.digitsOf x.digits).drop n.toNat).length = x.exponent := by
      rw [List.length_drop]
      omega
    rw [double, List.take_append_drop, digitsValue_digitsOf, power, hexponent]
    rfl
  · have hlength : n.toNat ≤ 21 := by omega
    exact Nat.le_trans (List.length_take_le _ _) hlength

theorem exists_above_point (hx : x.digits ≠ 0) (hlow : 0 < n) (hhigh : n ≤ 21)
    (houtside : ¬n.toNat < (Layout.digitsOf x.digits).length) :
    ∃ d : DecimalNumeral, Layout.script.positional (Layout.digitsOf x.digits) n = d.chars ∧
      d.Spells x := by
  obtain ⟨k, hk⟩ : ∃ k, n.toNat - (Layout.digitsOf x.digits).length = k := ⟨_, rfl⟩
  have hdigits : ∀ c ∈ Layout.digitsOf x.digits ++ Layout.zeros k, c.isDigit = true := by
    intro c hc
    rcases List.mem_append.mp hc with hc | hc
    · exact isDigit_of_mem_digitsOf hc
    · exact isDigit_of_mem_zeros hc
  obtain ⟨c, cs, hcs, hc⟩ := digitsOf_start x.digits hx
  refine ⟨⟨Layout.digitsOf x.digits ++ Layout.zeros k, [], none, hdigits,
    .inr ⟨c, cs ++ Layout.zeros k, by rw [hcs]; rfl, hc⟩, by simp, by simp⟩, ?_, ?_, ?_⟩
  · simp [Layout.positional, Int.not_le.mpr hlow, houtside, hk, chars, fractionChars, exponentChars,
      Layout.script]
  · have hexponent : x.exponent = k := by omega
    rw [double, List.append_nil, digitsValue_append_zeros, digitsValue_digitsOf]
    simp [power, Decimal.toDouble, hexponent, Double.ofDecimal_eq_ofQuotient]
  · have hlength : (Layout.digitsOf x.digits ++ Layout.zeros k).length ≤ 21 := by
      rw [List.length_append, Layout.zeros, List.length_replicate]
      omega
    exact hlength

theorem exists_scientific (hx : x.digits ≠ 0) (hrange : ¬(-5 ≤ n ∧ n ≤ 21)) :
    ∃ d : DecimalNumeral, Layout.script.scientific (Layout.digitsOf x.digits) n = d.chars ∧
      d.Spells x := by
  obtain ⟨c, cs, hcs, hc⟩ := digitsOf_start x.digits hx
  have hdigit : c.isDigit = true := isDigit_of_mem_digitsOf (hcs ▸ List.mem_cons_self)
  have hmore : ∀ d ∈ cs, d.isDigit = true := fun d hd =>
    isDigit_of_mem_digitsOf (hcs ▸ List.mem_cons_of_mem c hd)
  have hdigits : ∀ p ∈ some (decide (n - 1 < 0), Layout.digitsOf (n - 1).natAbs),
      p.2 ≠ [] ∧ ∀ c ∈ p.2, c.isDigit = true := by
    intro p hp
    obtain rfl : _ = p := by simpa using hp
    exact ⟨Nat.toDigits_ne_nil, fun c => isDigit_of_mem_digitsOf⟩
  refine ⟨⟨[c], cs, some (decide (n - 1 < 0), Layout.digitsOf (n - 1).natAbs), by simpa using hdigit,
    .inr ⟨c, [], rfl, hc⟩, hmore, hdigits⟩, ?_, ?_, rfl, ?_⟩
  · rw [hcs, chars, exponentChars_digitsOf]
    cases cs with
    | nil => rfl
    | cons d cs => simp [Layout.scientific, fractionChars]
  · have hvalue : digitsValue ([c] ++ cs) = x.digits := by
      rw [List.singleton_append, ← hcs, digitsValue_digitsOf]
    have hexponent : n - 1 - cs.length = x.exponent := by
      rw [hcs, List.length_cons] at hn
      omega
    rw [double, hvalue, power_digitsOf, hexponent]
    rfl
  · rw [power_digitsOf]
    omega

omit hn in
/-- Every decimal other than zero is written as a numeral that reads as its double. -/
theorem exists_decimal (hx : x.digits ≠ 0) :
    ∃ d : DecimalNumeral, Layout.script.decimal x = d.chars ∧ d.Spells x := by
  obtain ⟨n, hn⟩ : ∃ n : Int, n = (Layout.digitsOf x.digits).length + x.exponent := ⟨_, rfl⟩
  rw [Layout.decimal, ← hn]
  by_cases hrange : Layout.script.lowest ≤ n ∧ n ≤ Layout.script.highest
  · rw [if_pos hrange]
    rcases Int.lt_or_le 0 n with hlow | hlow
    · by_cases hinside : n.toNat < (Layout.digitsOf x.digits).length
      · exact exists_around_point x hn hx hlow hrange.2 hinside
      · exact exists_above_point x hn hx hlow hrange.2 hinside
    · exact exists_below_point x hn hlow
  · rw [if_neg hrange]
    exact exists_scientific x hn hx hrange

omit hn in
/-- The text of a finite magnitude is a numeral that reads as that magnitude. -/
theorem exists_magnitude (rank : Fin finiteCount) :
    ∃ d : DecimalNumeral, Layout.script.magnitude rank = d.chars ∧ d.double = .finite false rank ∧
      d.InScriptForm := by
  by_cases hz : rank.val = 0
  · refine ⟨ofNat 0, ?_, ?_, (by decide : 1 ≤ 21)⟩
    · simp [Layout.magnitude, hz, Layout.script, chars, ofNat, fractionChars, exponentChars,
        Layout.digitsOf]
    · have hrank : rank = ⟨0, by decide⟩ := Fin.ext hz
      rw [double_ofNat, hrank]
      exact Double.ofQuotient_zero false Nat.one_pos
  · obtain ⟨d, hchars, hdouble, hform⟩ :=
      exists_decimal (Double.shortest Layout.script.tie rank) (Double.digits_shortest_ne_zero _ hz)
    refine ⟨d, ?_, ?_, hform⟩
    · rw [Layout.magnitude, if_neg hz, hchars]
    · rw [hdouble, Decimal.toDouble, Double.ofDecimal_shortest]

end DecimalNumeral

end ConfigModules.Script
