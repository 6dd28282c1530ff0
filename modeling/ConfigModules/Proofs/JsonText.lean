import ConfigModules.Proofs.Yaml.JsonNumber
import ConfigModules.Proofs.Script.StringValue

/-! JSON texts, by the grammar of RFC 8259. A text and what it denotes are tied by a relation which takes the
text from the front, with all blanks that may stand between two marks. No text denotes two values. -/
namespace ConfigModules

/-- A value of JSON. A number is kept by its text, and the members of an object in their order. -/
inductive Json where
  | null
  | boolean (b : Bool)
  | number (chars : List Char)
  | string (s : String)
  | array (items : List Json)
  | object (members : List (String × Json))

namespace Json

/-! ## The grammar -/

def isBlank (c : Char) : Bool := c = ' ' || c = '\t' || c = '\n' || c = '\r'

def skip (cs : List Char) : List Char := cs.dropWhile isBlank

/-- The letters that may follow a backslash, with the code units that they stand for. -/
def letters : List (Char × Nat) :=
  [('\x22', 0x22), ('\\', 0x5C), ('/', 0x2F), ('b', 0x08), ('f', 0x0C), ('n', 0x0A), ('r', 0x0D), ('t', 0x09)]

/-- A text that begins behind the opening quote of a string, the code units up to the closing quote, and the
text behind that. A character beyond the first plane is escaped by its two surrogates. -/
inductive Spells : List Char → List Nat → List Char → Prop
  | close (rest : List Char) : Spells ('\x22' :: rest) [] rest
  | char {c : Char} {cs rest : List Char} {us : List Nat} :
      0x20 ≤ c.toNat → c ≠ '\x22' → c ≠ '\\' → Spells cs us rest →
      Spells (c :: cs) (Script.codeUnits c.toNat ++ us) rest
  | letter {c : Char} {u : Nat} {cs rest : List Char} {us : List Nat} :
      (c, u) ∈ letters → Spells cs us rest → Spells ('\\' :: c :: cs) (u :: us) rest
  | unit {d₁ d₂ d₃ d₄ : Char} {u : Nat} {cs rest : List Char} {us : List Nat} :
      Script.HexNumeral [d₁, d₂, d₃, d₄] u → Spells cs us rest →
      Spells ('\\' :: 'u' :: d₁ :: d₂ :: d₃ :: d₄ :: cs) (u :: us) rest

/-- The code units of a text. -/
def unitsOf (s : List Char) : List Nat := s.flatMap fun c => Script.codeUnits c.toNat

/-- Whether a character may stand in a number. -/
def isNumeric (c : Char) : Bool := c.isDigit || Yaml.JsonNumber.punctuation.contains c

mutual

/-- A text that begins with a value, the value, and the text behind it. -/
inductive Begins : List Char → Json → List Char → Prop
  | null (rest : List Char) : Begins ('n' :: 'u' :: 'l' :: 'l' :: rest) .null rest
  | yes (rest : List Char) : Begins ('t' :: 'r' :: 'u' :: 'e' :: rest) (.boolean true) rest
  | no (rest : List Char) : Begins ('f' :: 'a' :: 'l' :: 's' :: 'e' :: rest) (.boolean false) rest
  /-- What may stand behind a value never goes on with a number. -/
  | number {t : Yaml.JsonNumber} {cs rest : List Char} :
      cs = t.chars ++ rest → (∀ c ∈ rest.head?, isNumeric c = false) → Begins cs (.number t.chars) rest
  | string {s : String} {cs rest : List Char} :
      Spells cs (unitsOf s.toList) rest → Begins ('\x22' :: cs) (.string s) rest
  | emptyArray {cs rest : List Char} : skip cs = ']' :: rest → Begins ('[' :: cs) (.array []) rest
  | array {items : List Json} {cs rest : List Char} :
      Items (skip cs) items rest → Begins ('[' :: cs) (.array items) rest
  | emptyObject {cs rest : List Char} : skip cs = '\x7d' :: rest → Begins ('\x7b' :: cs) (.object []) rest
  | object {members : List (String × Json)} {cs rest : List Char} :
      Members (skip cs) members rest → Begins ('\x7b' :: cs) (.object members) rest

/-- The items of an array, the closing bracket included. -/
inductive Items : List Char → List Json → List Char → Prop
  | last {v : Json} {cs more rest : List Char} :
      Begins cs v more → skip more = ']' :: rest → Items cs [v] rest
  | cons {v : Json} {vs : List Json} {cs more next rest : List Char} :
      Begins cs v more → skip more = ',' :: next → Items (skip next) vs rest → Items cs (v :: vs) rest

inductive Member : List Char → String × Json → List Char → Prop
  | named {k : String} {v : Json} {cs more next rest : List Char} :
      Spells cs (unitsOf k.toList) more → skip more = ':' :: next → Begins (skip next) v rest →
      Member ('\x22' :: cs) (k, v) rest

/-- The members of an object, the closing brace included. -/
inductive Members : List Char → List (String × Json) → List Char → Prop
  | last {m : String × Json} {cs more rest : List Char} :
      Member cs m more → skip more = '\x7d' :: rest → Members cs [m] rest
  | cons {m : String × Json} {ms : List (String × Json)} {cs more next rest : List Char} :
      Member cs m more → skip more = ',' :: next → Members (skip next) ms rest → Members cs (m :: ms) rest

end

/-- A text is one value, with blanks around it at most. -/
def Denotes (text : String) (v : Json) : Prop := ∃ rest, Begins (skip text.toList) v rest ∧ skip rest = []

/-! ## Strings -/

/-- Characters are told by their code units. -/
theorem unitsOf_injective : Function.Injective unitsOf := by
  have hread : ∀ s : List Char, Script.TextPart.ofUnits (unitsOf s) = s.map .char := by
    intro s
    have hunits : unitsOf s = (s.map Script.TextPart.char).flatMap Script.TextPart.units := by
      rw [unitsOf, List.flatMap_map]
      rfl
    rw [hunits]
    refine Script.TextPart.ofUnits_flatMap_units ?_ ?_
    · intro p hp
      obtain ⟨c, _, rfl⟩ := List.mem_map.mp hp
      trivial
    · rintro ⟨before, high, low, after, hparts, _⟩
      have hmem : Script.TextPart.surrogate high ∈ s.map .char := by simp [hparts]
      simp at hmem
  intro s t h
  have hparts := (hread s).symm.trans ((congrArg _ h).trans (hread t))
  exact (List.map_inj_right fun _ _ => Script.TextPart.char.inj).mp hparts

theorem hexNumeral_unique {ds : List Char} {m n : Nat} (hm : Script.HexNumeral ds m)
    (hn : Script.HexNumeral ds n) : m = n := by
  have hread := (Script.StringText.hex?_of_numeral hm []).symm.trans (Script.StringText.hex?_of_numeral hn [])
  injection hread with hpair
  exact congrArg Prod.fst hpair

theorem letters_unique {c : Char} {u u' : Nat} (h : (c, u) ∈ letters) (h' : (c, u') ∈ letters) : u = u' := by
  have hall : ∀ p ∈ letters, ∀ q ∈ letters, p.1 = q.1 → p.2 = q.2 := by decide
  exact hall _ h _ h' rfl

theorem letter_ne_u {c : Char} {u : Nat} (h : (c, u) ∈ letters) : c ≠ 'u' := by
  have hall : ∀ p ∈ letters, p.1 ≠ 'u' := by decide
  exact hall _ h

theorem Spells.unique {cs rest rest' : List Char} {us us' : List Nat} (h : Spells cs us rest)
    (h' : Spells cs us' rest') : us = us' ∧ rest = rest' := by
  induction h generalizing us' with
  | close rest =>
    cases h' with
    | close => exact ⟨rfl, rfl⟩
    | char _ hquote => exact absurd rfl hquote
  | char _ hquote hslash _ ih =>
    cases h' with
    | close => exact absurd rfl hquote
    | char _ _ _ hmore =>
      obtain ⟨rfl, rfl⟩ := ih hmore
      exact ⟨rfl, rfl⟩
    | letter | unit => exact absurd rfl hslash
  | letter hletter _ ih =>
    cases h' with
    | char _ _ hslash => exact absurd rfl hslash
    | letter hletter' hmore =>
      obtain ⟨rfl, rfl⟩ := ih hmore
      exact ⟨by rw [letters_unique hletter hletter'], rfl⟩
    | unit => exact absurd rfl (letter_ne_u hletter)
  | unit hdigits _ ih =>
    cases h' with
    | char _ _ hslash => exact absurd rfl hslash
    | letter hletter => exact absurd rfl (letter_ne_u hletter)
    | unit hdigits' hmore =>
      obtain ⟨rfl, rfl⟩ := ih hmore
      exact ⟨by rw [hexNumeral_unique hdigits hdigits'], rfl⟩

theorem Spells.unique_text {cs rest rest' : List Char} {s t : String} (h : Spells cs (unitsOf s.toList) rest)
    (h' : Spells cs (unitsOf t.toList) rest') : s = t ∧ rest = rest' := by
  obtain ⟨hunits, rfl⟩ := h.unique h'
  exact ⟨String.toList_inj.mp (unitsOf_injective hunits), rfl⟩

/-! ## Numbers -/

theorem isNumeric_of_mem_chars (t : Yaml.JsonNumber) : ∀ c ∈ t.chars, isNumeric c = true := by
  intro c hc
  rcases Yaml.JsonNumber.mem_chars hc with h | h <;> simp [isNumeric, h]

theorem chars_ne_nil (t : Yaml.JsonNumber) : t.chars ≠ [] := by
  obtain ⟨c, cs, hchars, _⟩ := t.exists_first
  simp [Yaml.JsonNumber.chars, hchars]

theorem isNumeric_of_cons_eq {c : Char} {cs rest : List Char} {t : Yaml.JsonNumber}
    (h : c :: cs = t.chars ++ rest) : isNumeric c = true := by
  obtain ⟨d, ds, hchars⟩ := List.exists_cons_of_ne_nil (chars_ne_nil t)
  rw [hchars, List.cons_append] at h
  exact (List.cons.inj h).1 ▸ isNumeric_of_mem_chars t d (hchars ▸ List.mem_cons_self)

/-- A number is taken as far as it goes. -/
theorem number_unique {t t' : Yaml.JsonNumber} {rest rest' : List Char}
    (hrest : ∀ c ∈ rest.head?, isNumeric c = false) (hrest' : ∀ c ∈ rest'.head?, isNumeric c = false)
    (h : t.chars ++ rest = t'.chars ++ rest') : t.chars = t'.chars ∧ rest = rest' := by
  have htake : ∀ (t : Yaml.JsonNumber) (rest : List Char), (∀ c ∈ rest.head?, isNumeric c = false) →
      (t.chars ++ rest).takeWhile isNumeric = t.chars := by
    intro t rest hrest
    have hnone : rest.takeWhile isNumeric = [] := by
      cases rest with
      | nil => rfl
      | cons c cs => exact List.takeWhile_cons_of_neg (Bool.not_eq_true _ ▸ hrest c rfl)
    rw [List.takeWhile_append_of_pos (isNumeric_of_mem_chars t), hnone, List.append_nil]
  have hchars : t.chars = t'.chars := by rw [← htake t rest hrest, h, htake t' rest' hrest']
  exact ⟨hchars, List.append_cancel_left (hchars ▸ h)⟩

/-! ## Blanks -/

theorem not_blank_of_isNumeric {c : Char} (h : isNumeric c = true) : isBlank c = false := by
  rw [Bool.eq_false_iff]
  intro hblank
  simp only [isBlank, Bool.or_eq_true, decide_eq_true_eq] at hblank
  rcases hblank with ((rfl | rfl) | rfl) | rfl <;> exact absurd h (by decide)

/-- No value begins with a blank. -/
theorem Begins.skip_eq {cs rest : List Char} {v : Json} (h : Begins cs v rest) : skip cs = cs := by
  cases h with
  | @number t cs rest heq =>
    obtain ⟨c, ds, hchars⟩ := List.exists_cons_of_ne_nil (chars_ne_nil t)
    rw [hchars, List.cons_append] at heq
    have hblank := not_blank_of_isNumeric (isNumeric_of_mem_chars t c (hchars ▸ List.mem_cons_self))
    rw [heq, skip, List.dropWhile_cons_of_neg (Bool.not_eq_true _ ▸ hblank)]
  | null | yes | no | string | emptyArray | array | emptyObject | object => rfl

theorem Members.skip_eq {cs rest : List Char} {ms : List (String × Json)} (h : Members cs ms rest) :
    skip cs = cs := by
  cases h with
  | last hm | cons hm => cases hm; rfl

/-! ## Texts denote at most one value -/

theorem not_begins_bracket {cs rest : List Char} {v : Json} : ¬Begins (']' :: cs) v rest := by
  intro h
  cases h with
  | number heq => exact absurd (isNumeric_of_cons_eq heq) (by decide)

theorem Items.not_end {cs rest more : List Char} {vs : List Json} (h : Items cs vs rest) : cs ≠ ']' :: more := by
  rintro rfl
  cases h with
  | last hv | cons hv => exact not_begins_bracket hv

theorem Members.not_end {cs rest more : List Char} {ms : List (String × Json)} (h : Members cs ms rest) :
    cs ≠ '\x7d' :: more := by
  rintro rfl
  cases h with
  | last hm | cons hm => cases hm

-- The induction is on the first derivation. Its first character leaves the second no form but its own and that of
-- a number, whose characters begin nothing else.
mutual

theorem Begins.unique {cs rest rest' : List Char} {v w : Json} :
    Begins cs v rest → Begins cs w rest' → v = w ∧ rest = rest'
  | .null _, h => by
    cases h with
    | null => exact ⟨rfl, rfl⟩
    | number heq => exact absurd (isNumeric_of_cons_eq heq) (by decide)
  | .yes _, h => by
    cases h with
    | yes => exact ⟨rfl, rfl⟩
    | number heq => exact absurd (isNumeric_of_cons_eq heq) (by decide)
  | .no _, h => by
    cases h with
    | no => exact ⟨rfl, rfl⟩
    | number heq => exact absurd (isNumeric_of_cons_eq heq) (by decide)
  | .number heq hrest, h => by
    cases h with
    | number heq' hrest' =>
      obtain ⟨hchars, rfl⟩ := number_unique hrest hrest' (heq.symm.trans heq')
      exact ⟨by rw [hchars], rfl⟩
    | null | yes | no | string | emptyArray | array | emptyObject | object =>
      exact absurd (isNumeric_of_cons_eq heq) (by decide)
  | .string hs, h => by
    cases h with
    | string hs' =>
      obtain ⟨rfl, rfl⟩ := hs.unique_text hs'
      exact ⟨rfl, rfl⟩
    | number heq => exact absurd (isNumeric_of_cons_eq heq) (by decide)
  | .emptyArray hend, h => by
    cases h with
    | emptyArray hend' =>
      cases hend.symm.trans hend'
      exact ⟨rfl, rfl⟩
    | array hitems => exact absurd hend hitems.not_end
    | number heq => exact absurd (isNumeric_of_cons_eq heq) (by decide)
  | .array hitems, h => by
    cases h with
    | emptyArray hend => exact absurd hend hitems.not_end
    | array hitems' =>
      obtain ⟨rfl, rfl⟩ := hitems.unique hitems'
      exact ⟨rfl, rfl⟩
    | number heq => exact absurd (isNumeric_of_cons_eq heq) (by decide)
  | .emptyObject hend, h => by
    cases h with
    | emptyObject hend' =>
      cases hend.symm.trans hend'
      exact ⟨rfl, rfl⟩
    | object hmembers => exact absurd hend hmembers.not_end
    | number heq => exact absurd (isNumeric_of_cons_eq heq) (by decide)
  | .object hmembers, h => by
    cases h with
    | emptyObject hend => exact absurd hend hmembers.not_end
    | object hmembers' =>
      obtain ⟨rfl, rfl⟩ := hmembers.unique hmembers'
      exact ⟨rfl, rfl⟩
    | number heq => exact absurd (isNumeric_of_cons_eq heq) (by decide)
termination_by structural h => h

theorem Items.unique {cs rest rest' : List Char} {vs ws : List Json} :
    Items cs vs rest → Items cs ws rest' → vs = ws ∧ rest = rest'
  | .last hv hend, h => by
    cases h with
    | last hv' hend' =>
      obtain ⟨rfl, rfl⟩ := hv.unique hv'
      cases hend.symm.trans hend'
      exact ⟨rfl, rfl⟩
    | cons hv' hcomma =>
      obtain ⟨rfl, rfl⟩ := hv.unique hv'
      cases hend.symm.trans hcomma
  | .cons hv hcomma hvs, h => by
    cases h with
    | last hv' hend =>
      obtain ⟨rfl, rfl⟩ := hv.unique hv'
      cases hend.symm.trans hcomma
    | cons hv' hcomma' hvs' =>
      obtain ⟨rfl, rfl⟩ := hv.unique hv'
      cases hcomma.symm.trans hcomma'
      obtain ⟨rfl, rfl⟩ := hvs.unique hvs'
      exact ⟨rfl, rfl⟩
termination_by structural h => h

theorem Member.unique {cs rest rest' : List Char} {m m' : String × Json} :
    Member cs m rest → Member cs m' rest' → m = m' ∧ rest = rest'
  | .named hk hcolon hv, h => by
    cases h with
    | named hk' hcolon' hv' =>
      obtain ⟨rfl, rfl⟩ := hk.unique_text hk'
      cases hcolon.symm.trans hcolon'
      obtain ⟨rfl, rfl⟩ := hv.unique hv'
      exact ⟨rfl, rfl⟩
termination_by structural h => h

theorem Members.unique {cs rest rest' : List Char} {ms ms' : List (String × Json)} :
    Members cs ms rest → Members cs ms' rest' → ms = ms' ∧ rest = rest'
  | .last hm hend, h => by
    cases h with
    | last hm' hend' =>
      obtain ⟨rfl, rfl⟩ := hm.unique hm'
      cases hend.symm.trans hend'
      exact ⟨rfl, rfl⟩
    | cons hm' hcomma =>
      obtain ⟨rfl, rfl⟩ := hm.unique hm'
      cases hend.symm.trans hcomma
  | .cons hm hcomma hms, h => by
    cases h with
    | last hm' hend =>
      obtain ⟨rfl, rfl⟩ := hm.unique hm'
      cases hend.symm.trans hcomma
    | cons hm' hcomma' hms' =>
      obtain ⟨rfl, rfl⟩ := hm.unique hm'
      cases hcomma.symm.trans hcomma'
      obtain ⟨rfl, rfl⟩ := hms.unique hms'
      exact ⟨rfl, rfl⟩
termination_by structural h => h

end

/-- No text denotes two values. -/
theorem Denotes.unique {text : String} {v w : Json} (h : Denotes text v) (h' : Denotes text w) : v = w := by
  obtain ⟨_, hv, _⟩ := h
  obtain ⟨_, hw, _⟩ := h'
  exact (hv.unique hw).1

end Json

end ConfigModules
