import ConfigModules.Script.Literal
import ConfigModules.Proofs.Related
import ConfigModules.Proofs.Script.Token

/-! The line of a module. The text of a value falls into stretches of code, bare keys and quoted texts. What a
stretch may hold is said without the writer; that all stretches are so is carried along the text that follows
each literal. -/
namespace ConfigModules

/-- A text that a value holds: a key of a mapping, or a string. -/
inductive ValueText where
  | key (k : String)
  | string (s : String)

def ValueText.chars : ValueText → List Char
  | .key k => k.toList
  | .string s => s.toList

namespace Value

mutual

/-- The keys and strings of a value, in their order. -/
def texts : Value → List ValueText
  | .string s => [.string s]
  | .sequence items => itemTexts items
  | .mapping entries => entryTexts entries
  | _ => []

def itemTexts : List Value → List ValueText
  | [] => []
  | v :: vs => v.texts ++ itemTexts vs

def entryTexts : List (String × Value) → List ValueText
  | [] => []
  | (k, v) :: es => .key k :: (v.texts ++ entryTexts es)

end

end Value

namespace Script

/-! ## What a line may hold -/

/-- A character that shows in ASCII, the space included. -/
def IsPrintable (c : Char) : Prop := 0x20 ≤ c.toNat ∧ c.toNat < 0x7F

/-- No control character and no separator of lines or paragraphs. -/
def IsClean (c : Char) : Prop :=
  0x20 ≤ c.toNat ∧ ¬(0x7F ≤ c.toNat ∧ c.toNat < 0xA0) ∧ c.toNat ≠ 0x2028 ∧ c.toNat ≠ 0x2029

instance (c : Char) : Decidable (IsPrintable c) := inferInstanceAs (Decidable (_ ∧ _))
instance (c : Char) : Decidable (IsClean c) := inferInstanceAs (Decidable (_ ∧ _ ∧ _ ∧ _))

theorem IsPrintable.clean {c : Char} (h : IsPrintable c) : IsClean c := by
  unfold IsPrintable at h
  unfold IsClean
  omega

/-- What may stand between two quoted texts. -/
def IsCode (c : Char) : Prop := IsPrintable c ∧ c ≠ '\x22'

instance (c : Char) : Decidable (IsCode c) := inferInstanceAs (Decidable (_ ∧ _))

/-- A character as it is spelled between double quotes: by itself, or by an escape if it would break the
line or end the quotes. -/
inductive SpelledAs : Char → List Char → Prop
  | self {c : Char} : IsClean c → c ≠ '\x22' → c ≠ '\\' → SpelledAs c [c]
  | escaped {c d : Char} {cs : List Char} : (IsClean c → c = '\x22' ∨ c = '\\') → IsPrintable d →
      (∀ x ∈ cs, IsCode x ∧ x ≠ '\\') → SpelledAs c ('\\' :: d :: cs)

/-- A name that begins with no digit, of ASCII letters and digits, the low line and the dollar sign. -/
def IsName (cs : List Char) : Prop :=
  (∃ c more, cs = c :: more ∧ c.isDigit = false) ∧ ∀ c ∈ cs, c.isAlphanum ∨ c = '_' ∨ c = '$'

/-- A stretch of a line. -/
inductive Segment where
  /-- Marks, words, numbers and blanks. -/
  | code (cs : List Char)
  /-- A key without quotes. -/
  | bareKey (k : String)
  /-- A text in double quotes, with the spelling of each of its characters. -/
  | quoted (text : ValueText) (spellings : List (List Char))

namespace Segment

def chars : Segment → List Char
  | code cs => cs
  | bareKey k => k.toList
  | quoted _ spellings => '\x22' :: (spellings.flatten ++ ['\x22'])

/-- The characters that stand outside of double quotes. -/
def bare : Segment → List Char
  | code cs => cs
  | bareKey k => k.toList
  | quoted _ _ => []

/-- The text of the value that the stretch shows. -/
def text? : Segment → Option ValueText
  | code _ => none
  | bareKey k => some (.key k)
  | quoted text _ => some text

def Sound : Segment → Prop
  | code cs => ∀ c ∈ cs, IsCode c
  | bareKey k => IsName k.toList ∧ k ≠ "__proto__"
  | quoted text spellings => List.Forall₂ SpelledAs text.chars spellings

end Segment

/-- Where a reader of a line stands. -/
inductive Place where
  | outside
  | inside
  | afterBackslash

/-- What a reader finds outside of double quotes. A backslash between quotes takes the next character with it. -/
def outsideQuotes : Place → List Char → List Char
  | _, [] => []
  | .outside, c :: cs => if c = '\x22' then outsideQuotes .inside cs else c :: outsideQuotes .outside cs
  | .inside, c :: cs =>
    if c = '\x22' then outsideQuotes .outside cs
    else if c = '\\' then outsideQuotes .afterBackslash cs
    else outsideQuotes .inside cs
  | .afterBackslash, _ :: cs => outsideQuotes .inside cs

/-! ## Sound stretches -/

theorem isCode_of_isDigit {c : Char} (h : c.isDigit = true) : IsCode c := by
  refine forall_digit h ?_
  decide

theorem IsName.isCode {cs : List Char} (h : IsName cs) : ∀ c ∈ cs, IsCode c := by
  intro c hc
  have hpart : isNamePart c = true := by
    have hall := h.2 c hc
    simp only [Char.isAlphanum, Bool.or_eq_true] at hall
    simp only [isNamePart, isNameStart, Bool.or_eq_true, decide_eq_true_eq]
    tauto
  have hascii : c.toNat < 128 := by
    rw [isNamePart, Bool.or_eq_true] at hpart
    rcases hpart with hstart | hdigit
    · exact Ahead.ascii_of_isNameStart hstart
    · exact Ahead.ascii_of_isDigit hdigit
  revert hpart
  refine Ahead.forall_ascii hascii ?_
  decide +kernel

theorem isName_of_isPlainKey {cs : List Char} (h : isPlainKey cs = true) : IsName cs := by
  cases cs with
  | nil => cases h
  | cons c cs =>
    rw [isPlainKey, Bool.and_eq_true, List.all_eq_true] at h
    obtain ⟨hstart, hmore⟩ := h
    obtain ⟨_, _, _, hdigit, _⟩ := Ahead.of_isNameStart hstart
    have hpart : ∀ x ∈ c :: cs, isNamePart x = true := by
      refine List.forall_mem_cons.mpr ⟨?_, hmore⟩
      rw [isNamePart, hstart, Bool.true_or]
    refine ⟨⟨c, cs, rfl, hdigit.1⟩, fun x hx => ?_⟩
    have hx := hpart x hx
    simp only [isNamePart, isNameStart, Bool.or_eq_true, decide_eq_true_eq] at hx
    simp only [Char.isAlphanum, Bool.or_eq_true]
    tauto

theorem isCode_of_fourDigits {n : Nat} (h : StringText.IsCoded n) :
    ∀ x ∈ Hex.fourDigits n, IsCode x ∧ x ≠ '\\' := by
  have hall : (Hex.fourDigits n).all (fun x => IsCode x ∧ x ≠ '\\') = true := by
    have hlow : ∀ n < 0xA0, (Hex.fourDigits n).all (fun x => IsCode x ∧ x ≠ '\\') = true := by decide +kernel
    rcases h with h | rfl | rfl
    · exact hlow n h
    · decide
    · decide
  simpa only [List.all_eq_true, decide_eq_true_eq] using hall

/-- A character that would break the line, spelled by a letter. -/
theorem spelledAs_letter {c d : Char} (hc : ¬IsClean c) (hd : IsPrintable d) : SpelledAs c ['\\', d] :=
  .escaped (fun h => absurd h hc) hd (List.forall_mem_nil _)

theorem spelledAs_escape (c : Char) : SpelledAs c (escape c) := by
  unfold escape
  split_ifs with hquote hslash hn hr ht hb hf hcode
  · exact .escaped (fun _ => .inl hquote) (by decide) (List.forall_mem_nil _)
  · exact .escaped (fun _ => .inr hslash) (by decide) (List.forall_mem_nil _)
  · subst hn
    exact spelledAs_letter (by decide) (by decide)
  · subst hr
    exact spelledAs_letter (by decide) (by decide)
  · subst ht
    exact spelledAs_letter (by decide) (by decide)
  · subst hb
    exact spelledAs_letter (by decide) (by decide)
  · subst hf
    exact spelledAs_letter (by decide) (by decide)
  · have hhidden : ¬IsClean c ∧ StringText.IsCoded c.toNat := by
      simp only [isControl, Bool.or_eq_true, Bool.and_eq_true, decide_eq_true_eq] at hcode
      unfold IsClean StringText.IsCoded
      omega
    exact .escaped (fun h => absurd h hhidden.1) (by decide) (isCode_of_fourDigits hhidden.2)
  · have hclean : IsClean c := by
      simp only [isControl, Bool.or_eq_true, Bool.and_eq_true, decide_eq_true_eq] at hcode
      unfold IsClean
      omega
    exact .self hclean hquote hslash

theorem outsideQuotes_inside {cs : List Char} (h : ∀ c ∈ cs, c ≠ '\x22' ∧ c ≠ '\\') (rest : List Char) :
    outsideQuotes .inside (cs ++ rest) = outsideQuotes .inside rest := by
  induction cs with
  | nil => rfl
  | cons c cs ih =>
    obtain ⟨⟨hquote, hslash⟩, hcs⟩ := List.forall_mem_cons.mp h
    rw [List.cons_append, outsideQuotes, if_neg hquote, if_neg hslash, ih hcs]

namespace SpelledAs

variable {c : Char} {cs : List Char} (h : SpelledAs c cs)
include h

theorem clean : ∀ x ∈ cs, IsClean x := by
  cases h with
  | self hclean _ _ => exact List.forall_mem_singleton.mpr hclean
  | escaped _ hd hcs =>
    exact List.forall_mem_cons.mpr
      ⟨by decide, List.forall_mem_cons.mpr ⟨hd.clean, fun x hx => (hcs x hx).1.1.clean⟩⟩

/-- What a spelling has beyond ASCII is the character itself. -/
theorem filter_not_printable :
    cs.filter (fun x => ¬IsPrintable x) = [c].filter fun x => IsClean x ∧ ¬IsPrintable x := by
  cases h with
  | self hclean _ _ => simp [List.filter_singleton, hclean]
  | @escaped d cs hc hd hcs =>
    have hspelling : ∀ x ∈ '\\' :: d :: cs, IsPrintable x :=
      List.forall_mem_cons.mpr ⟨by decide, List.forall_mem_cons.mpr ⟨hd, fun x hx => (hcs x hx).1.1⟩⟩
    have hchar : IsClean c → IsPrintable c := by
      intro hclean
      rcases hc hclean with rfl | rfl <;> decide
    rw [List.filter_eq_nil_iff.mpr fun x hx => by simpa using hspelling x hx]
    exact (List.filter_eq_nil_iff.mpr (by simpa using hchar)).symm

/-- The spelling of a character ends no quotes. -/
theorem outsideQuotes (rest : List Char) :
    Script.outsideQuotes .inside (cs ++ rest) = Script.outsideQuotes .inside rest := by
  cases h with
  | self _ hquote hslash =>
    exact outsideQuotes_inside (List.forall_mem_singleton.mpr ⟨hquote, hslash⟩) rest
  | escaped _ _ hcs => exact outsideQuotes_inside (fun x hx => ⟨(hcs x hx).1.2, (hcs x hx).2⟩) rest

end SpelledAs

section Spellings

variable {cs : List Char} {spellings : List (List Char)} (h : List.Forall₂ SpelledAs cs spellings)
include h

theorem clean_spellings : ∀ c ∈ spellings.flatten, IsClean c := by
  intro c hc
  obtain ⟨spelling, hspelling, hc⟩ := List.mem_flatten.mp hc
  obtain ⟨_, _, hspelled⟩ := exists_mem_left h hspelling
  exact hspelled.clean c hc

theorem filter_spellings : spellings.flatten.filter (fun x => ¬IsPrintable x) =
    cs.filter fun x => IsClean x ∧ ¬IsPrintable x := by
  induction h with
  | nil => rfl
  | cons hspelled _ ih =>
    rw [List.flatten_cons, List.filter_append, hspelled.filter_not_printable, ih, ← List.filter_append]
    rfl

theorem outsideQuotes_spellings (rest : List Char) :
    outsideQuotes .inside (spellings.flatten ++ rest) = outsideQuotes .inside rest := by
  induction h with
  | nil => rfl
  | cons hspelled _ ih => rw [List.flatten_cons, List.append_assoc, hspelled.outsideQuotes, ih]

end Spellings

theorem outsideQuotes_outside {cs : List Char} (h : ∀ c ∈ cs, IsCode c) (rest : List Char) :
    outsideQuotes .outside (cs ++ rest) = cs ++ outsideQuotes .outside rest := by
  induction cs with
  | nil => rfl
  | cons c cs ih =>
    obtain ⟨hc, hcs⟩ := List.forall_mem_cons.mp h
    rw [List.cons_append, outsideQuotes, if_neg hc.2, ih hcs, List.cons_append]

namespace Segment

variable {s : Segment} (h : s.Sound)
include h

theorem Sound.clean : ∀ c ∈ s.chars, IsClean c := by
  cases s with
  | code cs => exact fun c hc => (h c hc).1.clean
  | bareKey k => exact fun c hc => (h.1.isCode c hc).1.clean
  | quoted text spellings =>
    have hquote : IsClean '\x22' := by decide
    exact List.forall_mem_cons.mpr ⟨hquote,
      List.forall_mem_append.mpr ⟨clean_spellings h, List.forall_mem_singleton.mpr hquote⟩⟩

theorem Sound.isPrintable_bare : ∀ c ∈ s.bare, IsPrintable c := by
  cases s with
  | code cs => exact fun c hc => (h c hc).1
  | bareKey k => exact fun c hc => (h.1.isCode c hc).1
  | quoted text spellings => exact List.forall_mem_nil _

theorem Sound.outsideQuotes (rest : List Char) :
    Script.outsideQuotes .outside (s.chars ++ rest) = s.bare ++ Script.outsideQuotes .outside rest := by
  cases s with
  | code cs => exact outsideQuotes_outside h rest
  | bareKey k => exact outsideQuotes_outside h.1.isCode rest
  | quoted text spellings =>
    show Script.outsideQuotes .inside (spellings.flatten ++ ['\x22'] ++ rest) = _
    rw [List.append_assoc, outsideQuotes_spellings h]
    rfl

/-- What a stretch has beyond ASCII belongs to the text that it shows. -/
theorem Sound.filter_not_printable : s.chars.filter (fun x => ¬IsPrintable x) =
    (s.text?.toList.flatMap ValueText.chars).filter fun x => IsClean x ∧ ¬IsPrintable x := by
  have hnone : ∀ cs : List Char, (∀ c ∈ cs, IsCode c) →
      cs.filter (fun x => ¬IsPrintable x) = [] ∧ cs.filter (fun x => IsClean x ∧ ¬IsPrintable x) = [] := by
    intro cs hcs
    constructor <;> exact List.filter_eq_nil_iff.mpr fun x hx => by simp [(hcs x hx).1]
  cases s with
  | code cs => exact (hnone cs h).1
  | bareKey k =>
    obtain ⟨hchars, htext⟩ := hnone k.toList h.1.isCode
    simpa [chars, text?, ValueText.chars] using hchars.trans htext.symm
  | quoted text spellings =>
    have hquote : IsPrintable '\x22' := by decide
    simpa [chars, text?, hquote] using filter_spellings h

end Segment

section Segments

variable {segments : List Segment} (h : ∀ s ∈ segments, s.Sound)
include h

theorem outsideQuotes_segments :
    outsideQuotes .outside (segments.flatMap Segment.chars) = segments.flatMap Segment.bare := by
  induction segments with
  | nil => rfl
  | cons s segments ih =>
    obtain ⟨hs, hsegments⟩ := List.forall_mem_cons.mp h
    rw [List.flatMap_cons, hs.outsideQuotes, ih hsegments, List.flatMap_cons]

theorem filter_segments : (segments.flatMap Segment.chars).filter (fun x => ¬IsPrintable x) =
    ((segments.filterMap Segment.text?).flatMap ValueText.chars).filter
      fun x => IsClean x ∧ ¬IsPrintable x := by
  induction segments with
  | nil => rfl
  | cons s segments ih =>
    obtain ⟨hs, hsegments⟩ := List.forall_mem_cons.mp h
    rw [List.flatMap_cons, List.filter_append, hs.filter_not_printable, ih hsegments, ← List.filter_append,
      ← List.flatMap_append, List.filterMap_cons]
    cases s.text? <;> rfl

end Segments

/-! ## The texts of numbers -/

theorem forall_isCode {cs : List Char} (h : cs.all (fun c => IsCode c) = true) : ∀ c ∈ cs, IsCode c := by
  simpa only [List.all_eq_true, decide_eq_true_eq] using h

theorem isCode_sign (negative : Bool) : ∀ c ∈ Layout.sign negative, IsCode c := by
  refine forall_isCode ?_
  cases negative <;> decide

theorem DecimalNumeral.isCode_chars (d : DecimalNumeral) : ∀ c ∈ d.chars, IsCode c := by
  have hdigits : ∀ cs : List Char, (∀ c ∈ cs, c.isDigit = true) → ∀ c ∈ cs, IsCode c :=
    fun cs hcs c hc => isCode_of_isDigit (hcs c hc)
  have hfraction : ∀ c ∈ fractionChars d.fraction, IsCode c := by
    have hall := hdigits _ d.fraction_digits
    cases hf : d.fraction with
    | nil => exact List.forall_mem_nil _
    | cons c cs => exact List.forall_mem_cons.mpr ⟨by decide, hf ▸ hall⟩
  have hexponent : ∀ c ∈ exponentChars d.exponent, IsCode c := by
    cases he : d.exponent with
    | none => exact List.forall_mem_nil _
    | some e =>
      have hds := hdigits e.2 (d.exponent_digits e he).2
      have hsign : IsCode (if e.1 then '-' else '+') := by cases e.1 <;> decide
      exact List.forall_mem_cons.mpr ⟨by decide, List.forall_mem_cons.mpr ⟨hsign, hds⟩⟩
  exact List.forall_mem_append.mpr
    ⟨List.forall_mem_append.mpr ⟨hdigits _ d.whole_digits, hfraction⟩, hexponent⟩

theorem isCode_number (n : Number) : ∀ c ∈ n.chars, IsCode c := by
  have hinteger : ∀ i : Int, ∀ c ∈ Number.integerChars i, IsCode c := fun i =>
    List.forall_mem_append.mpr ⟨isCode_sign _, fun c hc => isCode_of_isDigit (isDigit_of_mem_digitsOf hc)⟩
  match n with
  | .unsigned n => exact hinteger n.toNat
  | .signed i => exact hinteger i.toInt
  | .real .nan =>
    have hword : "NaN".toList.all (fun c => IsCode c) = true := by decide
    exact forall_isCode hword
  | .real (.infinite negative) =>
    have hword : "Infinity".toList.all (fun c => IsCode c) = true := by decide
    exact List.forall_mem_append.mpr ⟨isCode_sign negative, forall_isCode hword⟩
  | .real (.finite negative rank) =>
    obtain ⟨d, hchars, _, _⟩ := DecimalNumeral.exists_magnitude rank
    exact List.forall_mem_append.mpr ⟨isCode_sign negative, hchars ▸ d.isCode_chars⟩

/-! ## The line of a module -/

/-- A text that falls into sound stretches, which show certain texts of a value in their order. -/
def Line (texts : List ValueText) (cs : List Char) : Prop :=
  ∃ segments : List Segment, cs = segments.flatMap Segment.chars ∧
    segments.filterMap Segment.text? = texts ∧ ∀ s ∈ segments, s.Sound

namespace Line

variable {texts : List ValueText} {rest : List Char} (h : Line texts rest)
include h

theorem cons {s : Segment} (hs : s.Sound) : Line (s.text?.toList ++ texts) (s.chars ++ rest) := by
  obtain ⟨segments, rfl, rfl, hsound⟩ := h
  refine ⟨s :: segments, rfl, ?_, List.forall_mem_cons.mpr ⟨hs, hsound⟩⟩
  rw [List.filterMap_cons]
  cases s.text? <;> rfl

theorem code (cs : List Char) (hcs : ∀ c ∈ cs, IsCode c) : Line texts (cs ++ rest) :=
  h.cons (s := .code cs) hcs

theorem word (cs : List Char) (hcs : cs.all (fun c => IsCode c) = true) : Line texts (cs ++ rest) :=
  h.code cs (forall_isCode hcs)

theorem quoted (text : ValueText) : Line (text :: texts) (Script.quoted text.chars rest) := by
  have htail : ∀ cs : List Char, quotedTail cs rest = (cs.map escape).flatten ++ '\x22' :: rest := by
    intro cs
    induction cs with
    | nil => rfl
    | cons c cs ih => rw [quotedTail, ih, List.map_cons, List.flatten_cons, List.append_assoc]
  have hspelled : List.Forall₂ SpelledAs text.chars (text.chars.map escape) := by
    rw [List.forall₂_map_right_iff]
    exact List.forall₂_same.mpr fun c _ => spelledAs_escape c
  have hline := h.cons (s := .quoted text (text.chars.map escape)) hspelled
  rw [Segment.chars, List.cons_append, List.append_assoc] at hline
  rw [Script.quoted, htail]
  exact hline

theorem key (k : String) : Line (.key k :: texts) (Script.key k rest) := by
  unfold Script.key
  split_ifs with hproto hplain
  · exact ((h.word [']'] (by decide)).quoted (.key k)).word ['['] (by decide)
  · exact h.cons (s := .bareKey k) ⟨isName_of_isPlainKey hplain, hproto⟩
  · exact h.quoted (.key k)

omit h in
theorem nil : Line [] [] := ⟨[], rfl, rfl, List.forall_mem_nil _⟩

end Line

mutual

theorem line_literal {texts : List ValueText} {rest : List Char} : (v : Value) → Line texts rest →
    Line (v.texts ++ texts) (literal v rest)
  | .null, h => h.word "null".toList (by decide)
  | .boolean true, h => h.word "true".toList (by decide)
  | .boolean false, h => h.word "false".toList (by decide)
  | .number n, h => h.code _ (isCode_number n)
  | .string s, h => h.quoted (.string s)
  | .sequence [], h => h.word ['[', ']'] (by decide)
  | .sequence (v :: vs), h => by
    rw [Value.texts, Value.itemTexts, List.append_assoc]
    exact (line_literal v (line_moreItems vs h)).word ['[', ' '] (by decide)
  | .mapping [], h => h.word ['\x7b', '\x7d'] (by decide)
  | .mapping ((k, v) :: es), h => by
    have hvalue := (line_literal v (line_moreEntries es h)).word [':', ' '] (by decide)
    rw [Value.texts, Value.entryTexts, List.cons_append, List.append_assoc]
    exact (hvalue.key k).word ['\x7b', ' '] (by decide)

theorem line_moreItems {texts : List ValueText} {rest : List Char} : (vs : List Value) → Line texts rest →
    Line (Value.itemTexts vs ++ texts) (moreItems vs rest)
  | [], h => h.word [' ', ']'] (by decide)
  | v :: vs, h => by
    rw [Value.itemTexts, List.append_assoc]
    exact (line_literal v (line_moreItems vs h)).word [',', ' '] (by decide)

theorem line_moreEntries {texts : List ValueText} {rest : List Char} : (es : List (String × Value)) →
    Line texts rest → Line (Value.entryTexts es ++ texts) (moreEntries es rest)
  | [], h => h.word [' ', '\x7d'] (by decide)
  | (k, v) :: es, h => by
    have hvalue := (line_literal v (line_moreEntries es h)).word [':', ' '] (by decide)
    rw [Value.entryTexts, List.cons_append, List.append_assoc]
    exact (hvalue.key k).word [',', ' '] (by decide)

end

theorem line_moduleText (v : Value) : Line v.texts (moduleText v).toList := by
  have hhead : "export default ".toList.all (fun c => IsCode c) = true := by decide
  have hend : Line [] [';'] := Line.nil.word [';'] (by decide)
  have hline : Line v.texts (literal v [';']) := List.append_nil v.texts ▸ line_literal v hend
  have htext : (moduleText v).toList = "export default ".toList ++ literal v [';'] := String.toList_ofList
  rw [htext]
  exact hline.word _ hhead

/-- The text of a module is one clean line. No character of it breaks the line; what it has beyond ASCII are
the characters of its keys and strings, in their order; and it falls into code and bare keys, which are ASCII
and all that stands outside of double quotes, and into quoted texts, the bare and quoted ones being the keys
and strings of the value in their order, and the bare ones names other than that of the prototype. -/
theorem module_is_one_clean_line (v : Value) :
    (∀ c ∈ (moduleText v).toList, IsClean c) ∧
    ((moduleText v).toList.filter (fun c => ¬IsPrintable c) =
      (v.texts.flatMap ValueText.chars).filter fun c => IsClean c ∧ ¬IsPrintable c) ∧
    (∀ c ∈ outsideQuotes .outside (moduleText v).toList, IsPrintable c) ∧
    ∃ segments : List Segment, (moduleText v).toList = segments.flatMap Segment.chars ∧
      outsideQuotes .outside (moduleText v).toList = segments.flatMap Segment.bare ∧
      segments.filterMap Segment.text? = v.texts ∧ ∀ s ∈ segments, s.Sound := by
  obtain ⟨segments, hchars, htexts, hsound⟩ := line_moduleText v
  have hbare := outsideQuotes_segments hsound
  rw [hchars, ← htexts]
  refine ⟨?clean, filter_segments hsound, ?bare, segments, rfl, hbare, rfl, hsound⟩
  case clean =>
    intro c hc
    obtain ⟨s, hs, hc⟩ := List.mem_flatMap.mp hc
    exact (hsound s hs).clean c hc
  case bare =>
    rw [hbare]
    intro c hc
    obtain ⟨s, hs, hc⟩ := List.mem_flatMap.mp hc
    exact (hsound s hs).isPrintable_bare c hc

end Script

end ConfigModules
