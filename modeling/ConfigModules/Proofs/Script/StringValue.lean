import ConfigModules.Proofs.Script.StringLiteral

/-! The text that is kept of a string. It is spelled with marks as soon as one surrogate is without its partner,
and nothing tells a text with marks from one that has the same characters of its own. -/
namespace ConfigModules

namespace Hex

/-- Digits with zeros before them, up to a width. -/
def padded (width n : Nat) : List Char := List.replicate (width - (digits n).length) '0' ++ digits n

theorem padded_one {n : Nat} (h : n < 16) : padded 1 n = [n.digitChar] := by
  have hdigits : digits n = [n.digitChar] := Nat.toDigits_of_lt_base h
  rw [padded, hdigits]
  rfl

theorem padded_succ {width : Nat} (hwidth : width ≠ 0) (n : Nat) :
    padded (width + 1) n = padded width (n / 16) ++ [(n % 16).digitChar] := by
  by_cases h : n < 16
  · have hdigits : digits n = [n.digitChar] := Nat.toDigits_of_lt_base h
    have hzero : n / 16 = 0 := Nat.div_eq_of_lt h
    obtain ⟨k, rfl⟩ := Nat.exists_eq_succ_of_ne_zero hwidth
    have hnone : digits 0 = ['0'] := rfl
    rw [padded, padded, hdigits, hzero, hnone, Nat.mod_eq_of_lt h]
    simp [List.replicate_succ']
  · have hdigits : digits n = digits (n / 16) ++ [(n % 16).digitChar] :=
      Nat.toDigits_of_base_le (by decide) (Nat.le_of_not_lt h)
    rw [padded, padded, hdigits, List.length_append, List.length_singleton, Nat.add_sub_add_right,
      List.append_assoc]

/-- The four digits of a number below 65536, the highest first. -/
theorem fourDigits_eq {n : Nat} (h : n < 0x10000) :
    fourDigits n = [n / 4096, n / 256 % 16, n / 16 % 16, n % 16].map Nat.digitChar := by
  have hpadded : fourDigits n = padded 4 n := rfl
  rw [hpadded, padded_succ (by decide), padded_succ (by decide), padded_succ (by decide), padded_one (by omega)]
  simp [Nat.div_div_eq_div_mul]

theorem digitChar_injective {m n : Nat} (hm : m < 16) (hn : n < 16) (h : m.digitChar = n.digitChar) : m = n := by
  have hall : ∀ m < 16, ∀ n < 16, m.digitChar = n.digitChar → m = n := by decide
  exact hall m hm n hn h

theorem fourDigits_injective {m n : Nat} (hm : m < 0x10000) (hn : n < 0x10000)
    (h : fourDigits m = fourDigits n) : m = n := by
  rw [fourDigits_eq hm, fourDigits_eq hn] at h
  simp only [List.map_cons, List.map_nil, List.cons.injEq, and_true] at h
  have h3 := digitChar_injective (by omega) (by omega) h.1
  have h2 := digitChar_injective (by omega) (by omega) h.2.1
  have h1 := digitChar_injective (by omega) (by omega) h.2.2.1
  have h0 := digitChar_injective (by omega) (by omega) h.2.2.2
  omega

theorem length_fourDigits {n : Nat} (h : n < 0x10000) : (fourDigits n).length = 4 := by
  rw [fourDigits_eq h]
  rfl

end Hex

namespace Script

open StringText

theorem codeUnits_ne_nil (n : Nat) : codeUnits n ≠ [] := by
  unfold codeUnits
  split_ifs <;> exact List.cons_ne_nil _ _

namespace TextPart

/-! ## Marks -/

/-- The number in the mark of a part, if it is spelled with one. -/
def mark? : TextPart → Option Nat
  | .char c => if c = '\ufffd' then some 0xFFFD else none
  | .surrogate unit => some unit

theorem marked_eq (p : TextPart) :
    p.marked = match p.mark? with
      | some n => '\ufffd' :: Hex.fourDigits n
      | none => [p.plain] := by
  cases p with
  | char c =>
    rw [marked, mark?]
    split_ifs <;> rfl
  | surrogate unit => rfl

theorem IsSound.bounds {unit : Nat} (h : IsSound (.surrogate unit)) : 0xD800 ≤ unit ∧ unit < 0xE000 := by
  simp only [IsSound, isHigh, isLow, Bool.and_eq_true, decide_eq_true_eq] at h
  omega

theorem lt_of_mark? {p : TextPart} (h : p.IsSound) {n : Nat} (hn : p.mark? = some n) : n < 0x10000 := by
  cases p with
  | char c =>
    rw [mark?] at hn
    split_ifs at hn
    obtain rfl := Option.some.inj hn
    decide
  | surrogate unit =>
    obtain rfl := Option.some.inj hn
    have hbounds := h.bounds
    omega

theorem eq_of_mark? {p q : TextPart} (hp : p.IsSound) (hq : q.IsSound) (hmark : p.mark? = q.mark?)
    (hplain : p.mark? = none → p.plain = q.plain) : p = q := by
  cases p with
  | char c =>
    cases q with
    | char d =>
      simp only [mark?] at hmark hplain
      split_ifs at hmark hplain with hc hd hd
      · rw [hc, hd]
      · exact congrArg char (hplain rfl)
    | surrogate unit =>
      have hbounds := hq.bounds
      simp only [mark?] at hmark
      split_ifs at hmark
      have hunit := Option.some.inj hmark
      omega
  | surrogate unit =>
    have hbounds := hp.bounds
    cases q with
    | char d =>
      simp only [mark?] at hmark
      split_ifs at hmark
      have hunit := Option.some.inj hmark
      omega
    | surrogate unit' => exact congrArg surrogate (Option.some.inj hmark)

theorem plain_ne_of_mark? {p : TextPart} (h : p.mark? = none) : p.plain ≠ '\ufffd' := by
  cases p with
  | char c =>
    simp only [mark?] at h
    split_ifs at h with hc
    exact hc
  | surrogate unit => cases h

theorem marked_ne_nil (p : TextPart) : p.marked ≠ [] := by
  rw [marked_eq]
  cases p.mark? <;> exact List.cons_ne_nil _ _

/-- Two texts with marks are the same only if they are made of the same parts. -/
theorem marked_injective {ps qs : List TextPart} (hps : ∀ p ∈ ps, p.IsSound) (hqs : ∀ q ∈ qs, q.IsSound)
    (h : ps.flatMap marked = qs.flatMap marked) : ps = qs := by
  induction ps generalizing qs with
  | nil =>
    cases qs with
    | nil => rfl
    | cons q qs => exact absurd (List.append_eq_nil_iff.mp h.symm).1 q.marked_ne_nil
  | cons p ps ih =>
    cases qs with
    | nil => exact absurd (List.append_eq_nil_iff.mp h).1 p.marked_ne_nil
    | cons q qs =>
      obtain ⟨hp, hps⟩ := List.forall_mem_cons.mp hps
      obtain ⟨hq, hqs⟩ := List.forall_mem_cons.mp hqs
      rw [List.flatMap_cons, List.flatMap_cons, marked_eq p, marked_eq q] at h
      cases hmp : p.mark? with
      | none =>
        have hne := plain_ne_of_mark? hmp
        cases hmq : q.mark? with
        | none =>
          simp only [hmp, hmq] at h
          obtain ⟨hplain, hmore⟩ := List.cons.inj h
          rw [eq_of_mark? hp hq (hmp.trans hmq.symm) fun _ => hplain, ih hps hqs hmore]
        | some n =>
          simp only [hmp, hmq] at h
          exact absurd (List.cons.inj h).1 hne
      | some m =>
        cases hmq : q.mark? with
        | none =>
          have hne := plain_ne_of_mark? hmq
          simp only [hmp, hmq] at h
          exact absurd (List.cons.inj h).1.symm hne
        | some n =>
          have hm := lt_of_mark? hp hmp
          have hn := lt_of_mark? hq hmq
          simp only [hmp, hmq] at h
          have hlength : (Hex.fourDigits m).length = (Hex.fourDigits n).length := by
            rw [Hex.length_fourDigits hm, Hex.length_fourDigits hn]
          obtain ⟨hdigits, hmore⟩ := List.append_inj (List.cons.inj h).2 hlength
          have hsame : p.mark? = q.mark? := by
            rw [hmp, hmq, Hex.fourDigits_injective hm hn hdigits]
          rw [eq_of_mark? hp hq hsame fun hnone => absurd (hmp.symm.trans hnone) (Option.some_ne_none m),
            ih hps hqs hmore]

theorem eq_char_of_not_isSurrogate {p : TextPart} (h : p.isSurrogate = false) : p = .char p.plain := by
  cases p with
  | char c => rfl
  | surrogate unit => cases h

/-- Parts without surrogates are their characters. -/
theorem eq_map_plain {ps : List TextPart} (h : ps.any isSurrogate = false) : ps = (ps.map plain).map .char := by
  rw [List.any_eq_false] at h
  rw [List.map_map]
  refine (List.map_id' ps).symm.trans (List.map_congr_left fun p hp => ?_)
  exact eq_char_of_not_isSurrogate (Bool.eq_false_iff.mpr (h p hp))

/-- The characters of the second parts are the first ones with their marks. -/
def TakenFor (ps qs : List TextPart) : Prop :=
  ps.any isSurrogate = true ∧ qs.any isSurrogate = false ∧ ps.flatMap marked = qs.map plain

/-- Two texts are the same if their parts are, or if one has as characters what are marks in the other. -/
theorem text_eq_iff {ps qs : List TextPart} (hps : ∀ p ∈ ps, p.IsSound) (hqs : ∀ q ∈ qs, q.IsSound) :
    text ps = text qs ↔ ps = qs ∨ TakenFor ps qs ∨ TakenFor qs ps := by
  constructor
  · intro h
    rw [text, text] at h
    cases hp : ps.any isSurrogate with
    | true =>
      cases hq : qs.any isSurrogate with
      | true => exact .inl (marked_injective hps hqs (by simpa [hp, hq] using h))
      | false => exact .inr (.inl ⟨hp, hq, by simpa [hp, hq] using h⟩)
    | false =>
      cases hq : qs.any isSurrogate with
      | true => exact .inr (.inr ⟨hq, hp, by simpa [hp, hq] using h.symm⟩)
      | false =>
        have hplain : ps.map plain = qs.map plain := by simpa [hp, hq] using h
        rw [eq_map_plain hp, eq_map_plain hq, hplain]
        exact .inl rfl
  · rintro (rfl | ⟨hp, hq, hmarks⟩ | ⟨hq, hp, hmarks⟩)
    · rfl
    · rw [text, text, hp, hq, if_pos rfl, if_neg Bool.false_ne_true, hmarks]
    · rw [text, text, hp, hq, if_pos rfl, if_neg Bool.false_ne_true, hmarks]

/-! ## Marks are longer than what they mark -/

theorem flatMap_units_of_plain {ps : List TextPart} (h : ps.any isSurrogate = false) :
    ps.flatMap units = (ps.map plain).flatMap fun c => codeUnits c.toNat := by
  conv_lhs => rw [eq_map_plain h, List.flatMap_map]
  rfl

theorem length_le_codeUnits (cs : List Char) : cs.length ≤ (cs.flatMap fun c => codeUnits c.toNat).length := by
  induction cs with
  | nil => exact Nat.le_refl 0
  | cons c cs ih =>
    have hc := List.length_pos_iff.mpr (codeUnits_ne_nil c.toNat)
    rw [List.flatMap_cons, List.length_append, List.length_cons]
    omega

theorem length_units_lt_of_surrogate {unit : Nat} (h : IsSound (.surrogate unit)) :
    (units (.surrogate unit)).length < ((marked (.surrogate unit)).flatMap fun c => codeUnits c.toNat).length := by
  have hbounds := h.bounds
  refine Nat.lt_of_lt_of_le ?_ (length_le_codeUnits _)
  rw [marked, List.length_cons, Hex.length_fourDigits (by omega)]
  show 1 < 5
  decide

theorem length_units_le {p : TextPart} (h : p.IsSound) :
    p.units.length ≤ (p.marked.flatMap fun c => codeUnits c.toNat).length := by
  cases p with
  | char c =>
    rw [marked]
    split_ifs with hc
    · subst hc
      decide
    · rw [List.flatMap_singleton]
      exact Nat.le_refl _
  | surrogate unit => exact Nat.le_of_lt (length_units_lt_of_surrogate h)

theorem length_flatMap_units_le {ps : List TextPart} (h : ∀ p ∈ ps, p.IsSound) :
    (ps.flatMap units).length ≤ ((ps.flatMap marked).flatMap fun c => codeUnits c.toNat).length := by
  induction ps with
  | nil => exact Nat.le_refl 0
  | cons p ps ih =>
    obtain ⟨hp, hps⟩ := List.forall_mem_cons.mp h
    have hhead := length_units_le hp
    have hmore := ih hps
    simp only [List.flatMap_cons, List.flatMap_append, List.length_append]
    omega

/-- What is taken for another string has other code units, and fewer. -/
theorem TakenFor.length_lt {ps qs : List TextPart} (h : TakenFor ps qs) (hps : ∀ p ∈ ps, p.IsSound) :
    (ps.flatMap units).length < (qs.flatMap units).length := by
  obtain ⟨hsome, hplain, hmarks⟩ := h
  rw [flatMap_units_of_plain hplain, ← hmarks]
  obtain ⟨p, hp, hsurrogate⟩ := List.any_eq_true.mp hsome
  obtain ⟨before, after, rfl⟩ := List.append_of_mem hp
  obtain ⟨hbefore, hps⟩ := List.forall_mem_append.mp hps
  obtain ⟨hp, hafter⟩ := List.forall_mem_cons.mp hps
  cases p with
  | char c => cases hsurrogate
  | surrogate unit =>
    have hlow := length_flatMap_units_le hbefore
    have hhere := length_units_lt_of_surrogate hp
    have hhigh := length_flatMap_units_le hafter
    simp only [List.flatMap_append, List.flatMap_cons, List.length_append]
    omega

/-! ## Pairs -/

/-- A high surrogate directly before a low one, each by itself. -/
def SplitsPair (ps : List TextPart) : Prop :=
  ∃ before high low after, ps = before ++ .surrogate high :: .surrogate low :: after ∧
    isHigh high = true ∧ isLow low = true

/-- The parts of code units, with every pair taken together. -/
def ofUnits : List Nat → List TextPart
  | high :: low :: us =>
    if isHigh high && isLow low then ofPair high low :: ofUnits us else ofCode high :: ofUnits (low :: us)
  | [u] => [ofCode u]
  | [] => []

theorem ofUnits_cons {u : Nat} {us : List Nat} (h : isHigh u = true → ∀ low ∈ us.head?, isLow low = false) :
    ofUnits (u :: us) = ofCode u :: ofUnits us := by
  cases us with
  | nil => rfl
  | cons low us =>
    have hpair : (isHigh u && isLow low) = false := by
      cases hhigh : isHigh u with
      | false => rfl
      | true => exact h hhigh low rfl
    rw [ofUnits, hpair, if_neg Bool.false_ne_true]

theorem not_surrogate (c : Char) : isHigh c.toNat = false ∧ isLow c.toNat = false := by
  have hvalid : c.toNat.isValidChar := c.valid
  unfold Nat.isValidChar at hvalid
  simp only [isHigh, isLow, Bool.and_eq_false_iff, decide_eq_false_iff_not]
  omega

theorem toNat_lt (c : Char) : c.toNat < 0x110000 := by
  have hvalid : c.toNat.isValidChar := c.valid
  unfold Nat.isValidChar at hvalid
  omega

/-- The two code units of a character beyond the first plane are a pair. -/
theorem ofUnits_pair {c : Char} (hplane : ¬c.toNat < 0x10000) (us : List Nat) :
    ofUnits ([0xD800 + (c.toNat - 0x10000) / 0x400, 0xDC00 + (c.toNat - 0x10000) % 0x400] ++ us) =
      .char c :: ofUnits us := by
  have hbound := toNat_lt c
  have hhigh : isHigh (0xD800 + (c.toNat - 0x10000) / 0x400) = true := by
    simp only [isHigh, Bool.and_eq_true, decide_eq_true_eq]
    omega
  have hlow : isLow (0xDC00 + (c.toNat - 0x10000) % 0x400) = true := by
    simp only [isLow, Bool.and_eq_true, decide_eq_true_eq]
    omega
  have hcode : 0x10000 + (0xD800 + (c.toNat - 0x10000) / 0x400 - 0xD800) * 0x400 +
      (0xDC00 + (c.toNat - 0x10000) % 0x400 - 0xDC00) = c.toNat := by omega
  rw [List.cons_append, List.cons_append, ofUnits, hhigh, hlow, Bool.and_self, if_pos rfl, ofPair, hcode, Char.ofNat_toNat,
    List.nil_append]

theorem ofCode_toNat (c : Char) : ofCode c.toNat = .char c := by
  obtain ⟨hhigh, hlow⟩ := not_surrogate c
  rw [ofCode, hhigh, hlow, Char.ofNat_toNat]
  rfl

/-- Code units begin with a low surrogate only where such a part stands by itself. -/
theorem head_surrogate {ps : List TextPart} {low : Nat} (hlow : isLow low = true)
    (h : (ps.flatMap units).head? = some low) : ∃ after, ps = .surrogate low :: after := by
  cases ps with
  | nil => cases h
  | cons p ps =>
    cases p with
    | char c =>
      exfalso
      have hc := (not_surrogate c).2
      rw [List.flatMap_cons, units, codeUnits] at h
      split_ifs at h with hplane
      · obtain rfl : c.toNat = low := Option.some.inj h
        exact Bool.false_ne_true (hc.symm.trans hlow)
      · have hfirst : 0xD800 + (c.toNat - 0x10000) / 0x400 = low := Option.some.inj h
        have hbound := toNat_lt c
        simp only [isLow, Bool.and_eq_true, decide_eq_true_eq] at hlow
        omega
    | surrogate unit =>
      obtain rfl : unit = low := Option.some.inj h
      exact ⟨ps, rfl⟩

/-- Parts are told by their code units, as long as no pair is split. -/
theorem ofUnits_flatMap_units {ps : List TextPart} (hps : ∀ p ∈ ps, p.IsSound) (hsplit : ¬SplitsPair ps) :
    ofUnits (ps.flatMap units) = ps := by
  induction ps with
  | nil => rfl
  | cons p ps ih =>
    obtain ⟨hp, hps⟩ := List.forall_mem_cons.mp hps
    have hmore : ofUnits (ps.flatMap units) = ps := by
      refine ih hps ?_
      rintro ⟨before, high, low, after, rfl, hpair⟩
      exact hsplit ⟨p :: before, high, low, after, rfl, hpair⟩
    cases p with
    | char c =>
      rw [List.flatMap_cons, units, codeUnits]
      split_ifs with hplane
      · rw [List.singleton_append, ofUnits_cons, ofCode_toNat, hmore]
        intro hhigh
        exact absurd ((not_surrogate c).1.symm.trans hhigh) Bool.false_ne_true
      · rw [ofUnits_pair hplane, hmore]
    | surrogate unit =>
      have hcode : ofCode unit = .surrogate unit := by
        rw [ofCode, if_pos]
        simpa [IsSound] using hp
      rw [List.flatMap_cons, units, List.singleton_append, ofUnits_cons, hcode, hmore]
      intro hhigh low hlow
      by_contra hnot
      rw [Bool.not_eq_false] at hnot
      obtain ⟨after, rfl⟩ := head_surrogate hnot hlow
      exact hsplit ⟨[], unit, low, after, rfl, hhigh, hnot⟩

end TextPart

end Script

end ConfigModules
