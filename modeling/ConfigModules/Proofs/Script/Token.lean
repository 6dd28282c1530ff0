import ConfigModules.Script.Literal
import ConfigModules.Script.Token
import ConfigModules.Proofs.Script.NumberText

/-! The tokens of the text of a value. Each token is read off the front of its own text, whatever
follows, so the laws can be chained along a literal. -/
namespace ConfigModules.Script

namespace StringText

theorem hex?_append {k : Nat} {ds : List Char} (tail : List Char) (acc : Nat) (h : ds.length = k) :
    hex? k (ds ++ tail) acc = (hex? k ds acc).map fun (n, _) => (n, tail) := by
  induction ds generalizing k acc with
  | nil =>
    subst h
    rfl
  | cons d ds ih =>
    subst h
    rw [List.cons_append, List.length_cons, hex?, hex?]
    cases Hex.value? d with
    | none => rfl
    | some v => exact ih _ rfl

/-- The characters that are escaped by their code. -/
def IsCoded (n : Nat) : Prop := n < 0xA0 ∨ n = 0x2028 ∨ n = 0x2029

theorem fourDigits_of_isCoded {n : Nat} (h : IsCoded n) :
    (Hex.fourDigits n).length = 4 ∧ hex? 4 (Hex.fourDigits n) 0 = some (n, []) ∧
      (Hex.fourDigits n).head? ≠ some '\x7b' ∧ isHigh n = false ∧ isLow n = false := by
  have hall : ∀ n < 0xA0, (Hex.fourDigits n).length = 4 ∧ hex? 4 (Hex.fourDigits n) 0 = some (n, []) ∧
      (Hex.fourDigits n).head? ≠ some '\x7b' ∧ isHigh n = false ∧ isLow n = false := by decide +kernel
  rcases h with h | rfl | rfl
  · exact hall n h
  · decide
  · decide

theorem unicode?_fourDigits {c : Char} (h : IsCoded c.toNat) (tail : List Char) :
    unicode? (Hex.fourDigits c.toNat ++ tail) = some (.char c, tail) := by
  obtain ⟨hlength, hvalue, hbrace, hhigh, hlow⟩ := fourDigits_of_isCoded h
  have hread : hex? 4 (Hex.fourDigits c.toNat ++ tail) 0 = some (c.toNat, tail) := by
    rw [hex?_append tail 0 hlength, hvalue]
    rfl
  unfold unicode?
  split
  · rename_i ds hds
    cases hdigits : Hex.fourDigits c.toNat with
    | nil => simp [hdigits] at hlength
    | cons d more =>
      rw [hdigits, List.cons_append] at hds
      rw [hdigits, (List.cons.inj hds).1] at hbrace
      exact absurd rfl hbrace
  · simp [hread, hhigh, ofCode, hlow, Char.ofNat_toNat]

/-- One escaped character of a literal is read in one step. -/
theorem parts?_escape (c : Char) (fuel : Nat) (tail : List Char) :
    parts? '\x22' (fuel + 1) (escape c ++ tail) =
      (parts? '\x22' fuel tail).map fun (parts, rest) => (.char c :: parts, rest) := by
  unfold escape
  split_ifs with hquote hslash hn hr ht hb hf hcode
  · subst hquote; rfl
  · subst hslash; rfl
  · subst hn; rfl
  · subst hr; rfl
  · subst ht; rfl
  · subst hb; rfl
  · subst hf; rfl
  · have hcoded : IsCoded c.toNat := by
      simp only [isControl, Bool.or_eq_true, Bool.and_eq_true, decide_eq_true_eq] at hcode
      unfold IsCoded
      omega
    have hread : escape? ('u' :: (Hex.fourDigits c.toNat ++ tail)) = some ([.char c], tail) := by
      simp [escape?, isLineBreak, unicode?_fourDigits hcoded tail]
    simp [parts?, hread]
  · simp [parts?, hquote, hslash, hn, hr]

/-- The characters of a string are read back, the closing quote is taken, and nothing after it. -/
theorem parts?_quotedTail (s rest : List Char) (fuel : Nat) (h : (quotedTail s rest).length < fuel) :
    parts? '\x22' fuel (quotedTail s rest) = some (s.map .char, rest) := by
  induction s generalizing fuel with
  | nil =>
    cases fuel with
    | zero => exact absurd h (Nat.not_lt_zero _)
    | succ fuel => rfl
  | cons c s ih =>
    cases fuel with
    | zero => exact absurd h (Nat.not_lt_zero _)
    | succ fuel =>
      have hstep : 1 ≤ (escape c).length := by
        unfold escape
        split_ifs <;> simp
      have hfuel : (quotedTail s rest).length < fuel := by
        rw [quotedTail, List.length_append] at h
        omega
      rw [quotedTail, parts?_escape, ih fuel hfuel]
      rfl

theorem text_map_char (s : List Char) : TextPart.text (s.map .char) = s := by
  have hplain : (s.map TextPart.char).any TextPart.isSurrogate = false := by
    simp [TextPart.isSurrogate]
  rw [TextPart.text, hplain]
  simp [Function.comp_def, TextPart.plain]

theorem read?_quotedTail (s rest : List Char) :
    read? '\x22' (quotedTail s rest) = some (String.ofList s, rest) := by
  rw [read?, parts?_quotedTail s rest _ (Nat.lt_succ_self _)]
  simp [text_map_char]

end StringText

namespace Ahead

/-- A character that begins a token by itself: no blank, no line break and no slash. -/
def Solid (c : Char) : Prop := isLineBreak c = false ∧ isSpace c = false ∧ c ≠ '/'

instance (c : Char) : Decidable (Solid c) := inferInstanceAs (Decidable (_ ∧ _ ∧ _))

theorem skipBlanks_solid {c : Char} (h : Solid c) (newLine : Bool) (cs : List Char) :
    skipBlanks .between newLine (c :: cs) = some (newLine, c :: cs) := by
  obtain ⟨hbreak, hspace, hslash⟩ := h
  simp [skipBlanks, hbreak, hspace, hslash]

theorem read_solid {c : Char} (h : Solid c) {cs rest : List Char} {token : Token}
    (ht : token? (c :: cs) = some (token, rest)) :
    read (c :: cs) = some ⟨token, false, c :: cs, rest⟩ := by
  simp only [read, skipBlanks_solid h, ht]

@[simp] theorem read_space (cs : List Char) : read (' ' :: cs) = read cs := by
  have hskip : skipBlanks .between false (' ' :: cs) = skipBlanks .between false cs := rfl
  rw [read, read, hskip]

/-- A mark that is never longer than one character. -/
theorem read_loneMark {c : Char} (h : isLoneMark c = true) (cs : List Char) :
    read (c :: cs) = some ⟨.mark (String.singleton c), false, c :: cs, cs⟩ := by
  have hsolid : Solid c := by
    simp only [isLoneMark, Bool.or_eq_true, decide_eq_true_eq] at h
    rcases h with (((((((((((rfl | rfl) | rfl) | rfl) | rfl) | rfl) | rfl) | rfl) | rfl) | rfl) | rfl) | rfl) <;>
      exact ⟨rfl, rfl, by decide⟩
  exact read_solid hsolid (by simp [token?, h])

/-- A minus stands alone before anything but another minus and an equals sign. -/
theorem read_minus {c : Char} (hminus : c ≠ '-') (hequals : c ≠ '=') (cs : List Char) :
    read ('-' :: c :: cs) = some ⟨.mark "-", false, '-' :: c :: cs, c :: cs⟩ := by
  have hlong : firstMark? longMarks ('-' :: c :: cs) = none := by
    simp [firstMark?, longMarks, after?, hminus.symm, hequals.symm]
  have hmark : mark? ('-' :: c :: cs) = some ("-", c :: cs) := by
    unfold mark?
    -- The list of long marks must not be evaluated again.
    generalize firstMark? longMarks ('-' :: c :: cs) = long at hlong
    subst hlong
    rfl
  have hname : startsName '-' = false := rfl
  exact read_solid ⟨rfl, rfl, by decide⟩ (by simp [token?, hmark, isLoneMark, hname])

theorem read_quoted (s rest : List Char) :
    read (quoted s rest) = some ⟨.string (String.ofList s), false, quoted s rest, rest⟩ := by
  have htoken : token? (quoted s rest) = some (.string (String.ofList s), rest) := by
    simp [quoted, token?, isLoneMark, StringText.read?_quotedTail]
  exact read_solid ⟨rfl, rfl, by decide⟩ htoken

@[elab_as_elim] theorem forall_ascii {p : Char → Prop} {c : Char} (hc : c.toNat < 128)
    (h : ∀ n < 128, p (Char.ofNat n)) : p c := by
  have hp := h c.toNat hc
  rwa [Char.ofNat_toNat] at hp

theorem ascii_of_le {c d : Char} (hd : d.toNat < 128) (h : c.val ≤ d.val) : c.toNat < 128 :=
  Nat.lt_of_le_of_lt (UInt32.le_iff_toNat_le.mp h) hd

theorem ascii_of_isNameStart {c : Char} (h : isNameStart c = true) : c.toNat < 128 := by
  have hupper : c.isUpper = true → c.toNat < 128 := fun h =>
    ascii_of_le (d := 'Z') (by decide) (of_decide_eq_true h).2
  have hlower : c.isLower = true → c.toNat < 128 := fun h =>
    ascii_of_le (d := 'z') (by decide) (of_decide_eq_true (Bool.and_eq_true_iff.mp h).2)
  have halpha : c.isAlpha = (c.isUpper || c.isLower) := rfl
  simp only [isNameStart, halpha, Bool.or_eq_true, decide_eq_true_eq] at h
  rcases h with ((h | h) | rfl) | rfl
  · exact hupper h
  · exact hlower h
  · decide
  · decide

theorem ascii_of_isDigit {c : Char} (h : c.isDigit = true) : c.toNat < 128 :=
  Nat.lt_of_le_of_lt (Char.isDigit_iff_toNat.mp h).2 (by decide)

/-- The first character of a name begins nothing else. -/
theorem of_isNameStart {c : Char} (h : isNameStart c = true) :
    Solid c ∧ isLoneMark c = false ∧ (c ≠ '\x22' ∧ c ≠ '\x27') ∧ (c.isDigit = false ∧ c ≠ '.') ∧
      c ≠ '\\' ∧ startsName c = true := by
  have hc := ascii_of_isNameStart h
  revert h
  refine forall_ascii hc ?_
  decide +kernel

theorem of_isNamePart {c : Char} (h : isNamePart c = true) : continuesName c = true ∧ c ≠ '\\' := by
  rw [isNamePart, Bool.or_eq_true] at h
  rcases h with h | h
  · obtain ⟨_, _, _, _, hslash, hstart⟩ := of_isNameStart h
    exact ⟨by simp [continuesName, hstart], hslash⟩
  · refine ⟨by simp [continuesName, h], ?_⟩
    rintro rfl
    exact absurd h (by decide)

/-- The first character of a numeral begins nothing else. -/
theorem of_isDigit {c : Char} (h : c.isDigit = true) :
    Solid c ∧ isLoneMark c = false ∧ (c ≠ '\x22' ∧ c ≠ '\x27') ∧ c ≠ '-' ∧ c ≠ '=' := by
  have hc := ascii_of_isDigit h
  revert h
  refine forall_ascii hc ?_
  decide +kernel

theorem of_separator {c : Char} (h : c ∈ separators) :
    continuesName c = false ∧ c ≠ '\\' ∧ (c.isDigit || startsName c) = false := by
  have hall : ∀ c ∈ separators, continuesName c = false ∧ c ≠ '\\' ∧
      (c.isDigit || startsName c) = false := List.all_iff_forall_prop.mp (by decide +kernel)
  exact hall c h

theorem nameFrom?_append {w rest : List Char} (hw : ∀ c ∈ w, isNamePart c = true) (hrest : Parted rest)
    (taken : List Char) (htaken : taken ≠ []) {fuel : Nat} (hfuel : w.length < fuel) :
    nameFrom? fuel taken false (w ++ rest) = some (taken.reverse ++ w, false, rest) := by
  induction w generalizing taken fuel with
  | nil =>
    obtain ⟨c, cs, rfl, hc⟩ := hrest.head
    obtain ⟨hname, hslash, _⟩ := of_separator hc
    cases fuel with
    | zero => exact absurd hfuel (Nat.not_lt_zero _)
    | succ fuel => simp [nameFrom?, htaken, hname, hslash]
  | cons c w ih =>
    obtain ⟨hname, hslash⟩ := of_isNamePart (hw c List.mem_cons_self)
    cases fuel with
    | zero => exact absurd hfuel (Nat.not_lt_zero _)
    | succ fuel =>
      have htail := ih (fun x hx => hw x (List.mem_cons_of_mem c hx)) (c :: taken)
        (List.cons_ne_nil _ _) (Nat.lt_of_succ_lt_succ hfuel)
      simpa [nameFrom?, htaken, hname, hslash] using htail

theorem name?_append {c : Char} {w rest : List Char} (hc : isNameStart c = true)
    (hw : w.all isNamePart = true) (hrest : Parted rest) :
    name? (c :: (w ++ rest)) = some (String.ofList (c :: w), false, rest) := by
  obtain ⟨_, _, _, _, hslash, hstart⟩ := of_isNameStart hc
  have hread : nameFrom? (c :: (w ++ rest)).length [c] false (w ++ rest) = some (c :: w, false, rest) :=
    nameFrom?_append (List.all_eq_true.mp hw) hrest [c] (List.cons_ne_nil c [])
      (by rw [List.length_cons, List.length_append]; omega)
  rw [name?, nameFrom?, if_neg hslash, if_pos (by simpa using hstart), hread]

/-- A name that needs no quotes. -/
theorem read_name {w rest : List Char} (hw : isPlainKey w = true) (hrest : Parted rest) :
    read (w ++ rest) = some ⟨.name (String.ofList w) false, false, w ++ rest, rest⟩ := by
  cases w with
  | nil => cases hw
  | cons c w =>
    rw [isPlainKey, Bool.and_eq_true] at hw
    obtain ⟨hsolid, hmark, hquote, hdigit, _, hstart⟩ := of_isNameStart hw.1
    have hname := name?_append hw.1 hw.2 hrest
    exact read_solid hsolid (by simp [token?, hmark, hquote, hdigit, hstart, hname])

theorem read_numeral (d : DecimalNumeral) {rest : List Char} (hrest : Parted rest) :
    read (d.chars ++ rest) = some ⟨.number d.double, false, d.chars ++ rest, rest⟩ := by
  have hread := NumberText.read?_append d hrest
  obtain ⟨c, cs, hcs, hc⟩ := d.chars_start
  obtain ⟨hsolid, hmark, hquote, _⟩ := of_isDigit hc
  have htouch : touchesNumber rest = false := by
    obtain ⟨x, xs, rfl, hx⟩ := hrest.head
    simpa [touchesNumber] using (of_separator hx).2.2
  rw [hcs, List.cons_append] at hread ⊢
  exact read_solid hsolid (by simp [token?, hmark, hquote, hc, hread, htouch])

end Ahead

end ConfigModules.Script
