import ConfigModules.Proofs.Yaml.Word

/-! The numbers of JSON as plain scalars. A number is spelled by its parts; which reading of the resolution
takes it depends on the parts alone: digits without point and exponent go to the integers first, everything
else to the doubles. -/
namespace ConfigModules.Yaml

/-- The exponent of a number: a letter, perhaps a sign, and digits. -/
structure JsonExponent where
  capital : Bool
  /-- Whether the sign, if there is one, is a minus. -/
  sign : Option Bool
  digits : List Char
  digits_some : digits ≠ []
  digits_digits : ∀ c ∈ digits, c.isDigit

namespace JsonExponent

def letter (e : JsonExponent) : Char := if e.capital then 'E' else 'e'

theorem letter_cases (e : JsonExponent) : e.letter = 'e' ∨ e.letter = 'E' := by
  cases h : e.capital <;> simp [letter, h]

def signChars : Option Bool → List Char
  | none => []
  | some negative => [if negative then '-' else '+']

def chars (e : JsonExponent) : List Char := e.letter :: (signChars e.sign ++ e.digits)

def power (e : JsonExponent) : Int :=
  if e.sign = some true then -(digitsValue e.digits : Int) else digitsValue e.digits

end JsonExponent

/-- A number of JSON by its parts. A zero begins the digits before the point only if it is the only one; there
is no point exactly if there are no digits after it. -/
structure JsonNumber where
  negative : Bool
  whole : List Char
  fraction : List Char
  exponent : Option JsonExponent
  whole_digits : ∀ c ∈ whole, c.isDigit
  whole_start : whole = ['0'] ∨ ∃ c cs, whole = c :: cs ∧ c ≠ '0'
  fraction_digits : ∀ c ∈ fraction, c.isDigit

namespace JsonNumber

open Script (digitChar_digitValue)
open Script.DecimalNumeral (fractionChars)

def exponentChars (e : Option JsonExponent) : List Char := (e.map JsonExponent.chars).getD []

/-- What stands after the first digits. -/
def tail (t : JsonNumber) : List Char := fractionChars t.fraction ++ exponentChars t.exponent

/-- The number without its sign. -/
def magnitudeChars (t : JsonNumber) : List Char := t.whole ++ t.tail

def chars (t : JsonNumber) : List Char := Layout.sign t.negative ++ t.magnitudeChars

def text (t : JsonNumber) : String := String.ofList t.chars

/-- The number without its sign, exactly. -/
def decimal (t : JsonNumber) : Decimal :=
  ⟨digitsValue (t.whole ++ t.fraction), (t.exponent.map JsonExponent.power).getD 0 - t.fraction.length⟩

/-- A number without point and exponent. -/
def IsInteger (t : JsonNumber) : Prop := t.fraction = [] ∧ t.exponent = none

instance (t : JsonNumber) : Decidable t.IsInteger :=
  inferInstanceAs (Decidable (t.fraction = [] ∧ t.exponent = none))

/-! ## The word of a number -/

theorem whole_ne_nil (t : JsonNumber) : t.whole ≠ [] := by
  rcases t.whole_start with h | ⟨c, cs, h, _⟩ <;> simp [h]

theorem exists_first (t : JsonNumber) : ∃ c cs, t.magnitudeChars = c :: cs ∧ c.isDigit = true := by
  obtain ⟨c, cs, hwhole⟩ := List.exists_cons_of_ne_nil t.whole_ne_nil
  exact ⟨c, cs ++ t.tail, by rw [magnitudeChars, hwhole, List.cons_append],
    t.whole_digits c (hwhole ▸ List.mem_cons_self)⟩

theorem tail_cases (t : JsonNumber) :
    (t.IsInteger ∧ t.tail = []) ∨
      ¬t.IsInteger ∧ ∃ c cs, t.tail = c :: cs ∧ (c = '.' ∨ c = 'e' ∨ c = 'E') := by
  unfold tail IsInteger
  cases hfraction : t.fraction with
  | cons c cs => exact .inr ⟨by simp, '.', _, rfl, .inl rfl⟩
  | nil =>
    cases hexponent : t.exponent with
    | none => exact .inl ⟨⟨rfl, rfl⟩, rfl⟩
    | some e => exact .inr ⟨by simp, e.letter, _, rfl, .inr e.letter_cases⟩

/-- The characters of numbers that are no digits. -/
def punctuation : List Char := ['-', '+', '.', 'e', 'E']

theorem mem_tail {t : JsonNumber} {c : Char} (h : c ∈ t.tail) : c.isDigit = true ∨ c ∈ punctuation := by
  rcases List.mem_append.mp h with h | h
  · have hfraction := t.fraction_digits
    cases hf : t.fraction with
    | nil => simp [hf, fractionChars] at h
    | cons d ds =>
      rw [hf] at h hfraction
      rcases List.mem_cons.mp h with rfl | h
      · exact .inr (by decide)
      · exact .inl (hfraction c h)
  · cases he : t.exponent with
    | none => simp [he, exponentChars] at h
    | some e =>
      have hletter : e.letter ∈ punctuation := by
        rcases e.letter_cases with h | h <;> simp [h, punctuation]
      have hsign : ∀ c ∈ JsonExponent.signChars e.sign, c ∈ punctuation := by
        rcases e.sign with _ | _ | _ <;> simp [JsonExponent.signChars, punctuation]
      rw [he] at h
      rcases List.mem_cons.mp h with rfl | h
      · exact .inr hletter
      · rcases List.mem_append.mp h with h | h
        · exact .inr (hsign c h)
        · exact .inl (e.digits_digits c h)

theorem mem_chars {t : JsonNumber} {c : Char} (h : c ∈ t.chars) : c.isDigit = true ∨ c ∈ punctuation := by
  rcases List.mem_append.mp h with h | h
  · have hsign : ∀ c ∈ Layout.sign t.negative, c ∈ punctuation := by
      cases t.negative <;> simp [Layout.sign, punctuation]
    exact .inr (hsign c h)
  · rcases List.mem_append.mp h with h | h
    · exact .inl (t.whole_digits c h)
    · exact mem_tail h

theorem isWord (t : JsonNumber) : IsWord t.chars where
  allowed c hc := by
    rcases mem_chars hc with hdigit | hmark
    · refine Script.forall_digit hdigit ?_
      decide
    · exact List.all_eq_true.mp (by decide : punctuation.all isAllowed = true) c hmark
  solid c hc := by
    rcases mem_chars hc with hdigit | hmark
    · exact ⟨(of_isDigit hdigit).1, ne_of_isDigit hdigit (by decide)⟩
    · have hsolid : punctuation.all (fun c => !isBlankOrEnd c && c != ':') = true := by decide
      simpa using List.all_eq_true.mp hsolid c hmark
  start := by
    obtain ⟨c, cs, hchars, hdigit⟩ := t.exists_first
    cases hsign : t.negative with
    | false => exact .inl ⟨c, cs, by simp [chars, hsign, Layout.sign, hchars], hdigit⟩
    | true => exact .inr ⟨c, cs, by simp [chars, hsign, Layout.sign, hchars], hdigit⟩

/-! ## The decimal of a number -/

theorem exponent?_chars (e : JsonExponent) :
    Decimal.exponent? (JsonExponent.signChars e.sign ++ e.digits) = some e.power := by
  have hempty : e.digits.isEmpty = false := by simpa using e.digits_some
  have hall : e.digits.all Char.isDigit = true := List.all_eq_true.mpr e.digits_digits
  rw [JsonExponent.power]
  rcases hsign : e.sign with _ | _ | _
  · obtain ⟨c, cs, hdigits⟩ := List.exists_cons_of_ne_nil e.digits_some
    have hc : c.isDigit = true := e.digits_digits c (hdigits ▸ List.mem_cons_self)
    have hminus : c ≠ '-' := ne_of_isDigit hc (by decide)
    have hplus : c ≠ '+' := by
      rintro rfl
      exact absurd hc (by decide)
    rw [hdigits] at hall ⊢
    simp [Decimal.exponent?, JsonExponent.signChars, hminus, hplus, hall]
  · simp [Decimal.exponent?, JsonExponent.signChars, hempty, hall]
  · simp [Decimal.exponent?, JsonExponent.signChars, hempty, hall]

theorem ofParts?_exponentChars {whole : List Char} (hwhole : whole ≠ []) (fraction : List Char)
    (e : Option JsonExponent) :
    Decimal.ofParts? whole fraction (exponentChars e) = some ⟨digitsValue (whole ++ fraction),
      (e.map JsonExponent.power).getD 0 - fraction.length⟩ := by
  have hempty : whole.isEmpty = false := by simpa using hwhole
  cases e with
  | none => simp [Decimal.ofParts?, hempty, exponentChars]
  | some e =>
    simp [Decimal.ofParts?, hempty, exponentChars, JsonExponent.chars, e.letter_cases, exponent?_chars]

theorem takeWhile_dropWhile_digits {ds rest : List Char} (hds : ∀ c ∈ ds, c.isDigit)
    (hrest : ∀ c ∈ rest.head?, c.isDigit = false) :
    (ds ++ rest).takeWhile Char.isDigit = ds ∧ (ds ++ rest).dropWhile Char.isDigit = rest := by
  rw [List.takeWhile_append_of_pos hds, List.dropWhile_append_of_pos hds]
  cases rest with
  | nil => simp
  | cons c cs =>
    have hc := hrest c rfl
    simp [hc]

theorem exponentChars_cases (e : Option JsonExponent) :
    exponentChars e = [] ∨ ∃ c cs, exponentChars e = c :: cs ∧ (c = 'e' ∨ c = 'E') := by
  cases e with
  | none => exact .inl rfl
  | some e => exact .inr ⟨e.letter, _, rfl, e.letter_cases⟩

theorem ofChars?_magnitude (t : JsonNumber) : Decimal.ofChars? t.magnitudeChars = some t.decimal := by
  have hletter : ∀ c ∈ (exponentChars t.exponent).head?, c.isDigit = false := by
    rcases exponentChars_cases t.exponent with hnil | ⟨c, cs, hcons, rfl | rfl⟩ <;> simp [*]
  have hnodigit : ∀ c ∈ t.tail.head?, c.isDigit = false := by
    rcases t.tail_cases with ⟨_, hnil⟩ | ⟨_, c, cs, hcons, rfl | rfl | rfl⟩ <;> simp [*]
  obtain ⟨hwhole, htail⟩ := takeWhile_dropWhile_digits t.whole_digits hnodigit
  have hfraction := t.fraction_digits
  rw [Decimal.ofChars?, magnitudeChars, hwhole, htail, tail, decimal]
  cases hparts : t.fraction with
  | nil =>
    have hread := ofParts?_exponentChars t.whole_ne_nil [] t.exponent
    rw [fractionChars, List.nil_append]
    rcases exponentChars_cases t.exponent with hnil | ⟨c, cs, hcons, rfl | rfl⟩
    · rw [hnil] at hread ⊢
      exact hread
    · rw [hcons] at hread ⊢
      exact hread
    · rw [hcons] at hread ⊢
      exact hread
  | cons c cs =>
    rw [hparts] at hfraction
    obtain ⟨htaken, hleft⟩ := takeWhile_dropWhile_digits hfraction hletter
    change Decimal.ofParts? t.whole ((c :: cs ++ exponentChars t.exponent).takeWhile Char.isDigit)
      ((c :: cs ++ exponentChars t.exponent).dropWhile Char.isDigit) = _
    rw [htaken, hleft]
    exact ofParts?_exponentChars t.whole_ne_nil (c :: cs) t.exponent

/-! ## The readings of the resolution -/

/-- Whether a text begins as a number does. -/
def startsNumber : List Char → Bool
  | '-' :: c :: _ => c.isDigit
  | c :: _ => c.isDigit
  | [] => false

theorem startsNumber_chars (t : JsonNumber) : startsNumber t.chars = true := by
  obtain ⟨c, cs, hchars, hdigit⟩ := t.exists_first
  cases hsign : t.negative with
  | true => simp [chars, hsign, Layout.sign, hchars, startsNumber, hdigit]
  | false =>
    have hminus : c ≠ '-' := ne_of_isDigit hdigit (by decide)
    simp [chars, hsign, Layout.sign, hchars, startsNumber, hminus, hdigit]

/-- No number is among words that begin otherwise. -/
theorem not_mem_words (t : JsonNumber) {words : List String}
    (h : words.all (fun s => !startsNumber s.toList) = true) : t.chars ∉ words.map String.toList := by
  rintro hmem
  obtain ⟨s, hs, hchars⟩ := List.mem_map.mp hmem
  have hnot := List.all_eq_true.mp h s hs
  rw [hchars, t.startsNumber_chars] at hnot
  cases hnot

theorem isNullWord_chars (t : JsonNumber) : Resolution.isNullWord t.chars = false := by
  have hnot : t.chars ∉ ["null", "Null", "NULL", "~"].map String.toList := t.not_mem_words (by decide)
  rw [Resolution.isNullWord]
  simpa using hnot

theorem boolean?_chars (t : JsonNumber) : Resolution.boolean? t.chars = none := by
  rw [Resolution.boolean?, if_neg (t.not_mem_words (by decide)), if_neg (t.not_mem_words (by decide))]

theorem specialReal?_chars (t : JsonNumber) : Resolution.specialReal? t.chars = none := by
  rw [Resolution.specialReal?, if_neg (t.not_mem_words (by decide)), if_neg (t.not_mem_words (by decide)),
    if_neg (t.not_mem_words (by decide))]

theorem unsigned (t : JsonNumber) : ∃ c cs, t.magnitudeChars = c :: cs ∧ c ≠ '-' ∧ c ≠ '+' := by
  obtain ⟨c, cs, hchars, hdigit⟩ := t.exists_first
  refine ⟨c, cs, hchars, ne_of_isDigit hdigit (by decide), ?_⟩
  rintro rfl
  exact absurd hdigit (by decide)

theorem dropSign_magnitude (t : JsonNumber) : Resolution.dropSign t.magnitudeChars = t.magnitudeChars := by
  obtain ⟨c, cs, hchars, hminus, hplus⟩ := t.unsigned
  simp [hchars, Resolution.dropSign, hminus, hplus]

theorem dropSign_chars (t : JsonNumber) : Resolution.dropSign t.chars = t.magnitudeChars := by
  cases hsign : t.negative with
  | true => simp [chars, hsign, Layout.sign, Resolution.dropSign]
  | false =>
    rw [chars, hsign]
    exact t.dropSign_magnitude

theorem isPaddedDigits_magnitude (t : JsonNumber) : Resolution.isPaddedDigits t.magnitudeChars = false := by
  rw [Resolution.isPaddedDigits, dropSign_magnitude, magnitudeChars]
  rcases t.whole_start with hzero | ⟨c, cs, hwhole, hne⟩
  · rw [hzero]
    rcases t.tail_cases with ⟨_, hnil⟩ | ⟨_, c, cs, hcons, rfl | rfl | rfl⟩
    · simp [hnil]
    · simp [hcons]
    · simp [hcons]
    · simp [hcons]
  · rw [hwhole]
    simp [hne]

theorem isPaddedDigits_chars (t : JsonNumber) : Resolution.isPaddedDigits t.chars = false := by
  have h := t.isPaddedDigits_magnitude
  rwa [Resolution.isPaddedDigits, dropSign_magnitude, ← dropSign_chars] at h

/-! ## Integers -/

/-- Reads one more decimal digit. -/
def takeDigit (acc : Option Nat) (c : Char) : Option Nat :=
  acc.bind fun n => (Hex.value? c).bind fun d => if d < 10 then some (n * 10 + d) else none

theorem takeDigit_digit {c : Char} (h : c.isDigit = true) (n : Nat) :
    takeDigit (some n) c = some (n * 10 + digitValue c) := by
  obtain ⟨hlow, hhigh⟩ : 48 ≤ c.val ∧ c.val ≤ 57 := by simpa [Char.isDigit] using h
  have hvalue : Hex.value? c = some (digitValue c) := if_pos ⟨hlow, hhigh⟩
  simp [takeDigit, hvalue, (digitChar_digitValue h).1]

theorem takeDigit_mark {c : Char} (h : c = '.' ∨ c = 'e' ∨ c = 'E') (acc : Option Nat) :
    takeDigit acc c = none := by
  cases acc with
  | none => rfl
  | some n => rcases h with rfl | rfl | rfl <;> rfl

theorem radixValue?_digits {ds : List Char} (hne : ds ≠ []) (hds : ∀ c ∈ ds, c.isDigit) :
    Resolution.radixValue? 10 ds = some (digitsValue ds) := by
  have hfold : ∀ n, ds.foldl takeDigit (some n) = some (ds.foldl (fun n c => n * 10 + digitValue c) n) := by
    clear hne
    induction ds with
    | nil => exact fun _ => rfl
    | cons c cs ih =>
      obtain ⟨hc, hcs⟩ := List.forall_mem_cons.mp hds
      intro n
      rw [List.foldl_cons, List.foldl_cons, takeDigit_digit hc, ih hcs]
  have hempty : ds.isEmpty = false := by simpa using hne
  rw [Resolution.radixValue?, if_neg (by simp [hempty])]
  exact hfold 0

theorem radixValue?_append (ds cs : List Char) {c : Char} (hc : c = '.' ∨ c = 'e' ∨ c = 'E') :
    Resolution.radixValue? 10 (ds ++ c :: cs) = none := by
  have hnone : cs.foldl takeDigit none = none := by
    induction cs with
    | nil => rfl
    | cons c cs ih => exact ih
  have hfold : (ds ++ c :: cs).foldl takeDigit (some 0) = none := by
    rw [List.foldl_append, List.foldl_cons, takeDigit_mark hc, hnone]
  rw [Resolution.radixValue?, if_neg (by simp)]
  exact hfold

theorem magnitude?_magnitude (t : JsonNumber) :
    Resolution.magnitude? t.magnitudeChars = if t.IsInteger then some (digitsValue t.whole) else none := by
  have hdecimal : Resolution.radixValue? 10 t.magnitudeChars =
      if t.IsInteger then some (digitsValue t.whole) else none := by
    rw [magnitudeChars]
    rcases t.tail_cases with ⟨hinteger, hnil⟩ | ⟨hreal, c, cs, hcons, hc⟩
    · rw [if_pos hinteger, hnil, List.append_nil]
      exact radixValue?_digits t.whole_ne_nil t.whole_digits
    · rw [if_neg hreal, hcons]
      exact radixValue?_append _ _ hc
  have hmark : ∀ c cs, t.magnitudeChars = '0' :: c :: cs → c ≠ 'x' ∧ c ≠ 'o' ∧ c ≠ 'b' := by
    intro c cs hchars
    rw [magnitudeChars] at hchars
    rcases t.whole_start with hzero | ⟨d, ds, hwhole, hne⟩
    · rw [hzero] at hchars
      have htail : t.tail = c :: cs := (List.cons.inj hchars).2
      rcases t.tail_cases with ⟨_, hnil⟩ | ⟨_, d, ds, hcons, hd⟩
      · rw [hnil] at htail
        cases htail
      · obtain rfl : d = c := (List.cons.inj (hcons.symm.trans htail)).1
        rcases hd with rfl | rfl | rfl <;> decide
    · rw [hwhole] at hchars
      exact absurd (List.cons.inj hchars).1 hne
  rw [← hdecimal, Resolution.magnitude?, isPaddedDigits_magnitude]
  · exact if_neg Bool.false_ne_true
  · exact fun ds hchars => (hmark _ _ hchars).1 rfl
  · exact fun ds hchars => (hmark _ _ hchars).2.1 rfl
  · exact fun ds hchars => (hmark _ _ hchars).2.2 rfl

theorem integer?_chars (t : JsonNumber) : Resolution.integer? t.chars =
    if t.IsInteger then some (t.negative, digitsValue t.whole) else none := by
  have hmagnitude := t.magnitude?_magnitude
  have hmap : ∀ negative : Bool, (Resolution.magnitude? t.magnitudeChars).map (negative, ·) =
      if t.IsInteger then some (negative, digitsValue t.whole) else none := by
    intro negative
    rw [hmagnitude]
    split_ifs <;> rfl
  cases hsign : t.negative with
  | true =>
    have hchars : t.chars = '-' :: t.magnitudeChars := by simp [chars, hsign, Layout.sign]
    rw [hchars]
    exact hmap true
  | false =>
    obtain ⟨c, cs, hcons, hminus, hplus⟩ := t.unsigned
    have hchars : t.chars = t.magnitudeChars := by simp [chars, hsign, Layout.sign]
    rw [hchars, ← hmap false, Resolution.integer?]
    · intro ds hminus'
      exact hminus (List.cons.inj (hcons.symm.trans hminus')).1
    · intro ds hplus'
      exact hplus (List.cons.inj (hcons.symm.trans hplus')).1

/-! ## The value of a number -/

theorem decimalReal?_chars (t : JsonNumber) : Resolution.decimalReal? t.chars =
    match t.decimal.toDouble t.negative with
    | .finite n r => some (.finite n r)
    | _ => none := by
  have hfirst : decide (t.chars.head? = some '-') = t.negative := by
    obtain ⟨c, cs, hcons, hminus, _⟩ := t.unsigned
    cases hsign : t.negative with
    | true => simp [chars, hsign, Layout.sign]
    | false => simp [chars, hsign, Layout.sign, hcons, hminus]
  rw [Resolution.decimalReal?, dropSign_chars, ofChars?_magnitude, hfirst]
  rfl

/-- What a number resolves to: an integer that is told as one is settled by its size, any other number is the
nearest double, and text where that is infinite. -/
theorem plain_text (t : JsonNumber) : Resolution.plain t.text =
    match if t.IsInteger then Resolution.ofInteger t.negative (digitsValue t.whole) else none with
    | some r => r
    | none => match t.decimal.toDouble t.negative with
      | .finite n r => .ok (.number (.real (.finite n r)))
      | _ => .ok (.string t.text) := by
  have hchars : t.text.toList = t.chars := String.toList_ofList
  have hempty : t.chars.isEmpty = false := by simpa using t.isWord.ne_nil
  have hinteger : Resolution.integerTree? t.chars =
      if t.IsInteger then Resolution.ofInteger t.negative (digitsValue t.whole) else none := by
    rw [Resolution.integerTree?, integer?_chars]
    split_ifs <;> rfl
  have hreal : Resolution.real? t.chars = Resolution.decimalReal? t.chars := by
    rw [Resolution.real?, specialReal?_chars]
  rw [Resolution.plain]
  simp only [hchars, hempty, isNullWord_chars, boolean?_chars, hinteger, isPaddedDigits_chars, hreal,
    decimalReal?_chars, Bool.or_self, Bool.false_eq_true, if_false]
  cases (if t.IsInteger then Resolution.ofInteger t.negative (digitsValue t.whole) else none) with
  | some r => rfl
  | none => cases t.decimal.toDouble t.negative <;> rfl

end JsonNumber

end ConfigModules.Yaml
