import ConfigModules.Proofs.Script.Token

/-! String literals, and the code units that they denote. A grammar says what may stand between the quotes and
what it stands for, unit by unit. The reader takes every literal of the grammar, up to its closing quote, and
the parts that it keeps have the units that the literal denotes. -/
namespace ConfigModules.Script

/-! ## Code units -/

/-- The code units of a code point. -/
def codeUnits (n : Nat) : List Nat :=
  if n < 0x10000 then [n] else [0xD800 + (n - 0x10000) / 0x400, 0xDC00 + (n - 0x10000) % 0x400]

namespace TextPart

def units : TextPart → List Nat
  | .char c => codeUnits c.toNat
  | .surrogate unit => [unit]

/-- Only surrogates are kept as surrogates. -/
def IsSound : TextPart → Prop
  | .char _ => True
  | .surrogate unit => StringText.isHigh unit = true ∨ StringText.isLow unit = true

/-- Sound parts that make up a sequence of code units. -/
structure MakeUp (parts : List TextPart) (units : List Nat) : Prop where
  sound : ∀ p ∈ parts, p.IsSound
  units : parts.flatMap TextPart.units = units

namespace MakeUp

theorem nil : MakeUp [] [] := ⟨List.forall_mem_nil _, rfl⟩

theorem append {parts more : List TextPart} {us vs : List Nat} (h : MakeUp parts us) (h' : MakeUp more vs) :
    MakeUp (parts ++ more) (us ++ vs) :=
  ⟨List.forall_mem_append.mpr ⟨h.sound, h'.sound⟩, by rw [List.flatMap_append, h.units, h'.units]⟩

theorem part {p : TextPart} (h : p.IsSound) : MakeUp [p] p.units :=
  ⟨List.forall_mem_singleton.mpr h, List.flatMap_singleton ..⟩

theorem char (c : Char) : MakeUp [.char c] (codeUnits c.toNat) := part (p := .char c) trivial

end MakeUp

end TextPart

namespace StringText

theorem toNat_ofNat {n : Nat} (h : n ≤ 0x10FFFF) (hhigh : isHigh n = false) (hlow : isLow n = false) :
    (Char.ofNat n).toNat = n := by
  simp only [isHigh, isLow, Bool.and_eq_false_iff, decide_eq_false_iff_not] at hhigh hlow
  have hvalid : n.isValidChar := by
    unfold Nat.isValidChar
    omega
  rw [Char.ofNat, dif_pos hvalid]
  rfl

/-- A code point, a surrogate or not, is kept with its code units. -/
theorem makeUp_ofCode {n : Nat} (h : n ≤ 0x10FFFF) : TextPart.MakeUp [ofCode n] (codeUnits n) := by
  unfold ofCode
  split_ifs with hsurrogate
  · have hsound : TextPart.IsSound (.surrogate n) := by simpa [TextPart.IsSound] using hsurrogate
    have hunits : codeUnits n = [n] := by
      simp only [isHigh, isLow, Bool.or_eq_true, Bool.and_eq_true, decide_eq_true_eq] at hsurrogate
      exact if_pos (by omega)
    rw [hunits]
    exact .part hsound
  · rw [Bool.or_eq_true, not_or, Bool.not_eq_true, Bool.not_eq_true] at hsurrogate
    have hchar := TextPart.MakeUp.char (Char.ofNat n)
    rwa [toNat_ofNat h hsurrogate.1 hsurrogate.2] at hchar

theorem makeUp_ofPair {high low : Nat} (hhigh : isHigh high = true) (hlow : isLow low = true) :
    TextPart.MakeUp [ofPair high low] [high, low] := by
  simp only [isHigh, isLow, Bool.and_eq_true, decide_eq_true_eq] at hhigh hlow
  have hchar := TextPart.MakeUp.char (Char.ofNat (0x10000 + (high - 0xD800) * 0x400 + (low - 0xDC00)))
  have hcode := toNat_ofNat (n := 0x10000 + (high - 0xD800) * 0x400 + (low - 0xDC00)) (by omega)
    (by simp [isHigh]; omega) (by simp [isLow]; omega)
  have hunits : codeUnits (0x10000 + (high - 0xD800) * 0x400 + (low - 0xDC00)) = [high, low] := by
    rw [codeUnits, if_neg (by omega), List.cons.injEq, List.cons.injEq]
    exact ⟨by omega, by omega, rfl⟩
  rwa [hcode, hunits] at hchar

end StringText

/-! ## The grammar of literals -/

/-- Hexadecimal digits and their number. -/
def HexNumeral (ds : List Char) (n : Nat) : Prop :=
  ∃ values, List.Forall₂ (fun d v => Hex.value? d = some v) ds values ∧ values.foldl (fun n v => n * 16 + v) 0 = n

/-- The number that octal digits spell. -/
def octalNumber (ds : List Char) : Nat := ds.foldl (fun n d => n * 8 + StringText.octalValue d) 0

/-- The letters that stand for control characters after a backslash, with their code units. -/
def controlLetters : List (Char × Nat) :=
  [('n', 0x0A), ('t', 0x09), ('b', 0x08), ('v', 0x0B), ('f', 0x0C), ('r', 0x0D)]

/-- What may stand after a backslash, given the text ahead of it, and the code units that it stands for. A
line break stands for none. Octal digits are taken as far as they go, up to three and below 256. -/
inductive Escape : List Char → (ahead : List Char) → List Nat → Prop
  | lineBreak {c : Char} {ahead : List Char} :
      isLineBreak c = true → (c = '\r' → ahead.head? ≠ some '\n') → Escape [c] ahead []
  | twoLineBreaks (ahead : List Char) : Escape ['\r', '\n'] ahead []
  | control {c : Char} {u : Nat} (ahead : List Char) : (c, u) ∈ controlLetters → Escape [c] ahead [u]
  | hex {ds : List Char} {n : Nat} (ahead : List Char) :
      ds.length = 2 → HexNumeral ds n → Escape ('x' :: ds) ahead [n]
  | unit {ds : List Char} {n : Nat} (ahead : List Char) :
      ds.length = 4 → HexNumeral ds n → Escape ('u' :: ds) ahead [n]
  | codePoint {ds : List Char} {n : Nat} (ahead : List Char) :
      ds ≠ [] → HexNumeral ds n → n ≤ 0x10FFFF →
      Escape ('u' :: '\x7b' :: (ds ++ ['\x7d'])) ahead (codeUnits n)
  | octal {ds ahead : List Char} :
      ds ≠ [] → (∀ d ∈ ds, StringText.isOctal d = true) → ds.length ≤ 3 → octalNumber ds < 256 →
      (∀ d, ahead.head? = some d → StringText.isOctal d = true → ds.length = 3 ∨ 256 ≤ octalNumber (ds ++ [d])) →
      Escape ds ahead [octalNumber ds]
  | itself {c : Char} (ahead : List Char) :
      isLineBreak c = false → c ∉ 'x' :: 'u' :: controlLetters.map Prod.fst → StringText.isOctal c = false →
      Escape [c] ahead (codeUnits c.toNat)

/-- A text that ends with the closing quote, and the code units that it stands for. -/
inductive Spells (quote : Char) : List Char → List Nat → Prop
  | close : Spells quote [quote] []
  | char {c : Char} {cs : List Char} {units : List Nat} :
      c ≠ quote → c ≠ '\\' → c ≠ '\n' → c ≠ '\r' → Spells quote cs units →
      Spells quote (c :: cs) (codeUnits c.toNat ++ units)
  | escape {e cs : List Char} {us units : List Nat} :
      Escape e cs us → Spells quote cs units → Spells quote ('\\' :: (e ++ cs)) (us ++ units)

/-- A string literal: its quote, the text after it up to the closing quote, and what it denotes. -/
structure StringLiteral where
  quote : Char
  body : List Char
  units : List Nat
  isQuote : quote = '\x22' ∨ quote = '\x27'
  spells : Spells quote body units

/-! ## Reading escapes -/

namespace StringText

theorem hex?_of_digits {ds : List Char} {values : List Nat}
    (h : List.Forall₂ (fun d v => Hex.value? d = some v) ds values) (tail : List Char) (acc : Nat) :
    hex? ds.length (ds ++ tail) acc = some (values.foldl (fun n v => n * 16 + v) acc, tail) := by
  induction h generalizing acc with
  | nil => rfl
  | cons hd _ ih =>
    rw [List.length_cons, List.cons_append, hex?, hd]
    exact ih _

theorem hex?_of_numeral {ds : List Char} {n : Nat} (h : HexNumeral ds n) (tail : List Char) :
    hex? ds.length (ds ++ tail) 0 = some (n, tail) := by
  obtain ⟨values, hvalues, rfl⟩ := h
  exact hex?_of_digits hvalues tail 0

theorem le_hexValue (values : List Nat) (acc : Nat) : acc ≤ values.foldl (fun n v => n * 16 + v) acc := by
  induction values generalizing acc with
  | nil => exact Nat.le_refl acc
  | cons v values ih =>
    have hmore := ih (acc * 16 + v)
    rw [List.foldl_cons]
    omega

/-- The number in braces stays in bounds all the way if it is in bounds at the end. -/
theorem braced?_of_digits {ds : List Char} {values : List Nat}
    (h : List.Forall₂ (fun d v => Hex.value? d = some v) ds values) (tail : List Char) (hasDigit : Bool)
    (acc : Nat) (hsome : hasDigit = true ∨ ds ≠ []) (hle : values.foldl (fun n v => n * 16 + v) acc ≤ 0x10FFFF) :
    braced? hasDigit (ds ++ '\x7d' :: tail) acc =
      some (values.foldl (fun n v => n * 16 + v) acc, tail) := by
  induction h generalizing acc hasDigit with
  | nil =>
    obtain rfl : hasDigit = true := hsome.resolve_right (absurd rfl)
    rfl
  | @cons d v ds values hd _ ih =>
    have hbound := le_hexValue values (acc * 16 + v)
    have hbrace : d ≠ '\x7d' := by
      rintro rfl
      cases hd
    rw [List.foldl_cons] at hle
    rw [List.cons_append, braced?, if_neg hbrace, hd]
    show (if acc * 16 + v ≤ 0x10FFFF then _ else none) = _
    rw [if_pos (Nat.le_trans hbound hle)]
    exact ih true _ (.inl rfl) hle

/-- What follows the letter of an escape in braces. -/
theorem unicode?_braces {ds : List Char} {n : Nat} (hds : ds ≠ []) (h : HexNumeral ds n) (hn : n ≤ 0x10FFFF)
    (tail : List Char) : unicode? ('\x7b' :: (ds ++ '\x7d' :: tail)) = some (ofCode n, tail) := by
  obtain ⟨values, hvalues, rfl⟩ := h
  rw [unicode?, braced?_of_digits hvalues tail false 0 (.inr hds) hn]
  rfl

/-- What follows the letter of an escape of four digits. -/
theorem unicode?_digits {ds : List Char} {n : Nat} (hlength : ds.length = 4) (h : HexNumeral ds n)
    (tail : List Char) :
    unicode? (ds ++ tail) =
      if isHigh n then
        match followingLow? tail with
        | some (low, rest) => some (ofPair n low, rest)
        | none => some (.surrogate n, tail)
      else some (ofCode n, tail) := by
  have hread := hex?_of_numeral h tail
  rw [hlength] at hread
  unfold unicode?
  split
  · rename_i more hbrace
    obtain ⟨values, hvalues, _⟩ := h
    cases hvalues with
    | nil => cases hlength
    | cons hd _ =>
      rw [(List.cons.inj hbrace).1] at hd
      cases hd
  · generalize hex? 4 (ds ++ tail) 0 = read at hread ⊢
    subst hread
    rfl

theorem of_isOctal {d : Char} (h : isOctal d = true) :
    octalValue d ≤ 7 ∧ (d ≤ '3' ↔ octalValue d ≤ 3) := by
  simp only [isOctal, Bool.and_eq_true, decide_eq_true_eq] at h
  have hlow : '0'.toNat ≤ d.toNat := UInt32.le_iff_toNat_le.mp h.1
  have hhigh : d.toNat ≤ '7'.toNat := UInt32.le_iff_toNat_le.mp h.2
  have hthree : d ≤ '3' ↔ d.toNat ≤ '3'.toNat := UInt32.le_iff_toNat_le
  have hzero : '0'.toNat = 48 := rfl
  have hseven : '7'.toNat = 55 := rfl
  have hcode : '3'.toNat = 51 := rfl
  rw [octalValue, hthree]
  omega

theorem octal_of_digits {d : Char} {ds ahead : List Char} (hds : ∀ x ∈ d :: ds, isOctal x = true)
    (hlength : (d :: ds).length ≤ 3) (hbound : octalNumber (d :: ds) < 256) (hne : ahead ≠ [])
    (hmost : ∀ x, ahead.head? = some x → isOctal x = true →
      (d :: ds).length = 3 ∨ 256 ≤ octalNumber (d :: ds ++ [x])) :
    octal d (ds ++ ahead) = (octalNumber (d :: ds), ahead) := by
  obtain ⟨hd, hds⟩ := List.forall_mem_cons.mp hds
  obtain ⟨x, xs, rfl⟩ := List.exists_cons_of_ne_nil hne
  match ds with
  | [] =>
    have hx : isOctal x = false := by
      by_contra hx
      rw [Bool.not_eq_false] at hx
      have hmore := hmost x rfl hx
      have hdv := of_isOctal hd
      have hxv := of_isOctal hx
      simp [octalNumber] at hmore
      omega
    cases xs <;> simp [octal, hx, octalNumber]
  | [b] =>
    have hb := hds b List.mem_cons_self
    have hstop : (isOctal x && decide (d ≤ '3')) = false := by
      by_contra hx
      rw [Bool.not_eq_false, Bool.and_eq_true, decide_eq_true_eq] at hx
      have hmore := hmost x rfl hx.1
      have hdv := (of_isOctal hd).2.mp hx.2
      have hbv := of_isOctal hb
      have hxv := of_isOctal hx.1
      simp [octalNumber] at hmore
      omega
    have hvalue : octalNumber [d, b] = octalValue d * 8 + octalValue b := by
      simp [octalNumber]
    show octal d (b :: x :: xs) = _
    rw [octal, if_pos hb, if_neg (by simp [hstop]), hvalue]
  | [b, c] =>
    have hb := hds b List.mem_cons_self
    have hc := hds c (List.mem_cons_of_mem _ List.mem_cons_self)
    have hthree : d ≤ '3' := by
      rw [(of_isOctal hd).2]
      simp [octalNumber] at hbound
      omega
    have hvalue : octalNumber [d, b, c] = octalValue d * 64 + octalValue b * 8 + octalValue c := by
      simp only [octalNumber, List.foldl_cons, List.foldl_nil]
      omega
    simp [octal, hb, hc, hthree, hvalue]
  | _ :: _ :: _ :: _ => exact absurd hlength (by simp)
/-- How an escape is read that does not begin with two line breaks. -/
theorem escape?_cons {c : Char} {cs : List Char} (h : c = '\r' → cs.head? ≠ some '\n') :
    escape? (c :: cs) =
      if isLineBreak c then some ([], cs)
      else if c = 'n' then some ([.char '\n'], cs)
      else if c = 't' then some ([.char '\t'], cs)
      else if c = 'b' then some ([.char '\x08'], cs)
      else if c = 'v' then some ([.char '\x0b'], cs)
      else if c = 'f' then some ([.char '\x0c'], cs)
      else if c = 'r' then some ([.char '\r'], cs)
      else if c = 'x' then (hex? 2 cs 0).map fun (n, rest) => ([.char (Char.ofNat n)], rest)
      else if c = 'u' then (unicode? cs).map fun (part, rest) => ([part], rest)
      else if isOctal c then some ([.char (Char.ofNat (octal c cs).1)], (octal c cs).2)
      else some ([.char c], cs) := by
  rw [escape?]
  rintro cs' rfl rfl
  exact h rfl rfl

/-- A character that is neither a line break nor a letter with a meaning of its own. -/
theorem escape?_plain {c : Char} (hbreak : isLineBreak c = false)
    (hletter : c ∉ 'x' :: 'u' :: controlLetters.map Prod.fst) (cs : List Char) :
    escape? (c :: cs) =
      if isOctal c then some ([.char (Char.ofNat (octal c cs).1)], (octal c cs).2)
      else some ([.char c], cs) := by
  have hreturn : c = '\r' → cs.head? ≠ some '\n' := by
    rintro rfl
    cases hbreak
  simp only [controlLetters, List.map_cons, List.map_nil, List.mem_cons, List.not_mem_nil, or_false,
    not_or] at hletter
  obtain ⟨hx, hu, hn, ht, hb, hv, hf, hr⟩ := hletter
  rw [escape?_cons hreturn, hbreak, if_neg Bool.false_ne_true, if_neg hn, if_neg ht, if_neg hb, if_neg hv,
    if_neg hf, if_neg hr, if_neg hx, if_neg hu]

theorem plain_of_isOctal {c : Char} (h : isOctal c = true) :
    isLineBreak c = false ∧ c ∉ 'x' :: 'u' :: controlLetters.map Prod.fst := by
  have hc : c.toNat < 128 := by
    have hseven := (of_isOctal h).1
    rw [octalValue] at hseven
    have hzero : '0'.toNat = 48 := rfl
    omega
  revert h
  refine Ahead.forall_ascii hc ?_
  decide +kernel

theorem hexValue_lt {d : Char} {v : Nat} (h : Hex.value? d = some v) : v < 16 := by
  unfold Hex.value? at h
  split_ifs at h with hdigit hlower hupper
  · obtain rfl := Option.some.inj h
    have hle : d.toNat ≤ '9'.toNat := UInt32.le_iff_toNat_le.mp hdigit.2
    have hnine : '9'.toNat = 57 := rfl
    have hzero : '0'.toNat = 48 := rfl
    omega
  · obtain rfl := Option.some.inj h
    have hle : d.toNat ≤ 'f'.toNat := UInt32.le_iff_toNat_le.mp hlower.2
    have hf : 'f'.toNat = 102 := rfl
    have ha : 'a'.toNat = 97 := rfl
    omega
  · obtain rfl := Option.some.inj h
    have hle : d.toNat ≤ 'F'.toNat := UInt32.le_iff_toNat_le.mp hupper.2
    have hf : 'F'.toNat = 70 := rfl
    have ha : 'A'.toNat = 65 := rfl
    omega

theorem numeral_lt {ds : List Char} {n : Nat} (h : HexNumeral ds n) : n < 16 ^ ds.length := by
  obtain ⟨values, hvalues, rfl⟩ := h
  have hall : ∀ acc, values.foldl (fun n v => n * 16 + v) acc < (acc + 1) * 16 ^ ds.length := by
    induction hvalues with
    | nil => intro acc; simp
    | @cons d v ds values hd _ ih =>
      intro acc
      have hv := hexValue_lt hd
      refine Nat.lt_of_lt_of_le (ih (acc * 16 + v)) ?_
      rw [List.length_cons, Nat.pow_succ', ← Nat.mul_assoc]
      exact Nat.mul_le_mul_right _ (by omega)
  simpa using hall 0

/-- A code below 256 is that of a character, and its only code unit. -/
theorem makeUp_byte {n : Nat} (h : n < 256) : TextPart.MakeUp [.char (Char.ofNat n)] [n] := by
  have hchar := TextPart.MakeUp.char (Char.ofNat n)
  rwa [toNat_ofNat (by omega) (by simp [isHigh]; omega) (by simp [isLow]; omega), codeUnits,
    if_pos (by omega)] at hchar

end StringText

/-! ## Reading literals -/

open StringText

/-- Every escape but a code unit of four digits is read by itself. -/
theorem Escape.reads {e ahead : List Char} {us : List Nat} (h : Escape e ahead us) (hne : ahead ≠ []) :
    (∃ ds n, ds.length = 4 ∧ HexNumeral ds n ∧ e = 'u' :: ds ∧ us = [n]) ∨
      ∃ parts, TextPart.MakeUp parts us ∧
        ∀ rest, StringText.escape? (e ++ (ahead ++ rest)) = some (parts, ahead ++ rest) := by
  obtain ⟨x, xs, rfl⟩ := List.exists_cons_of_ne_nil hne
  cases h with
  | @lineBreak c _ hbreak hreturn =>
    refine .inr ⟨[], .nil, fun rest => ?_⟩
    have hreturn' : c = '\r' → (x :: xs ++ rest).head? ≠ some '\n' := hreturn
    exact (escape?_cons hreturn').trans (if_pos hbreak)
  | twoLineBreaks => exact .inr ⟨[], .nil, fun rest => rfl⟩
  | control _ hletter =>
    simp only [controlLetters, List.mem_cons, Prod.mk.injEq, List.not_mem_nil, or_false] at hletter
    rcases hletter with ⟨rfl, rfl⟩ | ⟨rfl, rfl⟩ | ⟨rfl, rfl⟩ | ⟨rfl, rfl⟩ | ⟨rfl, rfl⟩ | ⟨rfl, rfl⟩ <;>
      exact .inr ⟨_, .char _, fun rest => rfl⟩
  | @hex ds n _ hlength hds =>
    have hlt := numeral_lt hds
    rw [hlength] at hlt
    refine .inr ⟨_, makeUp_byte hlt, fun rest => ?_⟩
    have hread := hex?_of_numeral hds (x :: xs ++ rest)
    rw [hlength] at hread
    exact congrArg (Option.map _) hread
  | unit _ hlength hds => exact .inl ⟨_, _, hlength, hds, rfl, rfl⟩
  | @codePoint ds n _ hsome hds hn =>
    refine .inr ⟨_, makeUp_ofCode hn, fun rest => ?_⟩
    have hread := unicode?_braces hsome hds hn (x :: xs ++ rest)
    rw [List.cons_append, List.cons_append, List.append_assoc]
    exact congrArg (Option.map _) hread
  | octal hsome hds hlength hbound hmost =>
    obtain ⟨d, ds, rfl⟩ := List.exists_cons_of_ne_nil hsome
    refine .inr ⟨_, makeUp_byte hbound, fun rest => ?_⟩
    have hd := hds d List.mem_cons_self
    obtain ⟨hbreak, hletter⟩ := plain_of_isOctal hd
    have hread : StringText.octal d (ds ++ (x :: xs ++ rest)) = (octalNumber (d :: ds), x :: xs ++ rest) :=
      octal_of_digits hds hlength hbound (List.cons_ne_nil _ _) hmost
    rw [List.cons_append, escape?_plain hbreak hletter, if_pos hd, hread]
  | @itself c _ hbreak hletter hoctal =>
    refine .inr ⟨_, .char c, fun rest => ?_⟩
    rw [List.singleton_append, escape?_plain hbreak hletter, hoctal, if_neg Bool.false_ne_true]

theorem Spells.ne_nil {quote : Char} {body : List Char} {units : List Nat} (h : Spells quote body units) :
    body ≠ [] := by
  cases h <;> exact List.cons_ne_nil _ _

theorem followingLow?_some {cs after : List Char} {low : Nat} (h : followingLow? cs = some (low, after)) :
    isLow low = true ∧ ∃ ds, cs = '\\' :: 'u' :: ds ∧ hex? 4 ds 0 = some (low, after) := by
  unfold followingLow? at h
  split at h
  · rename_i ds
    cases hread : hex? 4 ds 0 with
    | none => simp [hread] at h
    | some found =>
      obtain ⟨n, more⟩ := found
      simp only [hread] at h
      split_ifs at h with hlow
      obtain ⟨rfl, rfl⟩ := Prod.mk.inj (Option.some.inj h)
      exact ⟨hlow, ds, rfl, hread⟩
  · cases h

theorem followingLow?_digits {ds : List Char} {low : Nat} (hlength : ds.length = 4) (h : HexNumeral ds low)
    (hlow : isLow low = true) (tail : List Char) :
    followingLow? ('\\' :: 'u' :: (ds ++ tail)) = some (low, tail) := by
  have hread := hex?_of_numeral h tail
  rw [hlength] at hread
  rw [followingLow?, hread]
  exact if_pos hlow

/-- An escape with the letter and the digits of a code unit is that code unit. -/
theorem Escape.unit_of_read {e ahead ds tail after : List Char} {us : List Nat} {n : Nat}
    (h : Escape e ahead us) (he : e ++ tail = 'u' :: ds) (hread : hex? 4 ds 0 = some (n, after)) :
    ∃ digits, e = 'u' :: digits ∧ digits.length = 4 ∧ HexNumeral digits n ∧ us = [n] := by
  cases h with
  | lineBreak hbreak _ =>
    obtain ⟨rfl, _⟩ := List.cons.inj he
    cases hbreak
  | twoLineBreaks => exact absurd (List.cons.inj he).1 (by decide)
  | control _ hletter =>
    obtain ⟨rfl, _⟩ := List.cons.inj he
    simp [controlLetters] at hletter
  | hex _ _ _ => exact absurd (List.cons.inj he).1 (by decide)
  | @unit digits m _ hlength hds =>
    obtain rfl : digits ++ tail = ds := (List.cons.inj he).2
    have hdigits := hex?_of_numeral hds tail
    rw [hlength, hread] at hdigits
    obtain rfl : n = m := congrArg Prod.fst (Option.some.inj hdigits)
    exact ⟨digits, rfl, hlength, hds, rfl⟩
  | codePoint _ _ _ _ =>
    obtain rfl := (List.cons.inj he).2
    cases hread
  | octal hsome hoctal _ _ _ =>
    obtain ⟨d, more, rfl⟩ := List.exists_cons_of_ne_nil hsome
    obtain ⟨rfl, _⟩ := List.cons.inj he
    exact absurd (hoctal 'u' List.mem_cons_self) (by decide)
  | itself _ _ hletter _ =>
    obtain ⟨rfl, _⟩ := List.cons.inj he
    simp at hletter

/-- Whether a low surrogate is found ahead does not depend on what stands after the literal. If it is found,
it is an escape of the literal, and the rest of the literal follows it. -/
theorem Spells.followingLow {quote : Char} (hquote : quote ≠ '\\') {body : List Char} {units : List Nat}
    (h : Spells quote body units) :
    (∀ rest, followingLow? (body ++ rest) = none) ∨
      ∃ low more us, isLow low = true ∧ units = low :: us ∧ Spells quote more us ∧
        more.length < body.length ∧ ∀ rest, followingLow? (body ++ rest) = some (low, more ++ rest) := by
  by_cases hnone : ∀ rest, followingLow? (body ++ rest) = none
  · exact .inl hnone
  · right
    obtain ⟨rest, hsome⟩ := not_forall.mp hnone
    obtain ⟨⟨low, after⟩, hahead⟩ := Option.ne_none_iff_exists'.mp hsome
    obtain ⟨hlow, ds, hbody, hread⟩ := followingLow?_some hahead
    cases h with
    | close => exact absurd (List.cons.inj hbody).1 hquote
    | char _ hslash _ _ _ => exact absurd (List.cons.inj hbody).1 hslash
    | @escape e cs us vs he hcs =>
      have htail : e ++ (cs ++ rest) = 'u' :: ds := by
        rw [← List.append_assoc]
        exact (List.cons.inj hbody).2
      obtain ⟨digits, rfl, hlength, hdigits, rfl⟩ := he.unit_of_read htail hread
      refine ⟨low, cs, vs, hlow, rfl, hcs, ?_, fun rest => ?_⟩
      · simp only [List.length_cons, List.length_append]
        omega
      · have hfound := followingLow?_digits hlength hdigits hlow (cs ++ rest)
        rwa [← List.append_assoc] at hfound

section Steps

variable {quote : Char} {parts : List TextPart} {cs rest : List Char} {fuel : Nat}
  (h : parts? quote fuel cs = some (parts, rest))
include h

theorem parts?_char {c : Char} (hc : c ≠ quote) (hslash : c ≠ '\\') (hn : c ≠ '\n') (hr : c ≠ '\r') :
    parts? quote (fuel + 1) (c :: cs) = some (.char c :: parts, rest) := by
  simp [parts?, hc, hslash, hn, hr, h]

theorem parts?_backslash (hquote : quote ≠ '\\') {ds : List Char} {head : List TextPart}
    (hread : escape? ds = some (head, cs)) :
    parts? quote (fuel + 1) ('\\' :: ds) = some (head ++ parts, rest) := by
  simp [parts?, hquote.symm, hread, h]

end Steps

/-- After a backslash the reader takes an escape, or two that make up a pair, and leaves the rest of the
literal. -/
theorem Escape.read_ahead {quote : Char} (hquote : quote ≠ '\\') {e cs : List Char} {us vs : List Nat}
    (he : Escape e cs us) (hcs : Spells quote cs vs) :
    ∃ head taken more left, TextPart.MakeUp head taken ∧ us ++ vs = taken ++ left ∧ Spells quote more left ∧
      more.length ≤ cs.length ∧ ∀ rest, escape? (e ++ cs ++ rest) = some (head, more ++ rest) := by
  rcases he.reads hcs.ne_nil with ⟨ds, n, hds, hnumeral, rfl, rfl⟩ | ⟨head, hhead, hescape⟩
  · have hdigits : ∀ rest, escape? ('u' :: ds ++ cs ++ rest) =
        (unicode? (ds ++ (cs ++ rest))).map fun (part, rest) => ([part], rest) := by
      intro rest
      rw [← List.append_assoc]
      rfl
    by_cases hhigh : isHigh n = true
    · rcases hcs.followingLow hquote with hnone | ⟨low, more, left, hlow, rfl, hmore, hlength, hsome⟩
      · refine ⟨_, _, cs, vs, .part (p := .surrogate n) (.inl hhigh), rfl, hcs, Nat.le_refl _, fun rest => ?_⟩
        rw [hdigits, unicode?_digits hds hnumeral, if_pos hhigh, hnone]
        rfl
      · refine ⟨_, _, more, left, makeUp_ofPair hhigh hlow, rfl, hmore, Nat.le_of_lt hlength, fun rest => ?_⟩
        rw [hdigits, unicode?_digits hds hnumeral, if_pos hhigh, hsome]
        rfl
    · have hbound := numeral_lt hnumeral
      rw [hds] at hbound
      have hcode := makeUp_ofCode (n := n) (by omega)
      rw [codeUnits, if_pos (by omega)] at hcode
      refine ⟨_, _, cs, vs, hcode, rfl, hcs, Nat.le_refl _, fun rest => ?_⟩
      rw [hdigits, unicode?_digits hds hnumeral, if_neg hhigh]
      rfl
  · refine ⟨head, us, cs, vs, hhead, rfl, hcs, Nat.le_refl _, fun rest => ?_⟩
    rw [List.append_assoc]
    exact hescape rest

/-- The reader takes a literal up to its closing quote, and what it keeps has the units of the literal. -/
theorem Spells.exists_parts {quote : Char} (hquote : quote ≠ '\\') {body : List Char} {units : List Nat}
    (h : Spells quote body units) :
    ∃ parts, TextPart.MakeUp parts units ∧
      ∀ rest fuel, body.length < fuel → parts? quote fuel (body ++ rest) = some (parts, rest) := by
  induction hlength : body.length using Nat.strong_induction_on generalizing body units with
  | _ n ih =>
  subst hlength
  cases h with
  | close =>
    refine ⟨[], .nil, fun rest fuel hfuel => ?_⟩
    obtain ⟨fuel, rfl⟩ := Nat.exists_eq_succ_of_ne_zero (Nat.ne_zero_of_lt hfuel)
    simp [parts?]
  | @char c cs us hc hslash hn hr hcs =>
    obtain ⟨parts, hparts, hread⟩ := ih cs.length (Nat.lt_succ_self _) hcs rfl
    refine ⟨.char c :: parts, .append (.char c) hparts, fun rest fuel hfuel => ?_⟩
    obtain ⟨fuel, rfl⟩ := Nat.exists_eq_succ_of_ne_zero (Nat.ne_zero_of_lt hfuel)
    exact parts?_char (hread rest fuel (Nat.lt_of_succ_lt_succ hfuel)) hc hslash hn hr
  | @escape e cs us vs he hcs =>
    obtain ⟨head, taken, more, left, hhead, hunits, hmore, hshorter, hescape⟩ := he.read_ahead hquote hcs
    have hlength : more.length < ('\\' :: (e ++ cs)).length := by
      rw [List.length_cons, List.length_append]
      omega
    obtain ⟨parts, hparts, hread⟩ := ih more.length hlength hmore rfl
    refine ⟨head ++ parts, hunits ▸ hhead.append hparts, fun rest fuel hfuel => ?_⟩
    obtain ⟨fuel, rfl⟩ := Nat.exists_eq_succ_of_ne_zero (Nat.ne_zero_of_lt hfuel)
    exact parts?_backslash (hread rest fuel (by omega)) hquote (hescape rest)

end ConfigModules.Script
