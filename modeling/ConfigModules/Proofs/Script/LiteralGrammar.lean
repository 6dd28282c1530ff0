import ConfigModules.Proofs.Script.Token
import ConfigModules.Proofs.Script.LiteralExpression

/-! The grammar reads the text of a value as the expression of that value. The law is stated for any
text that goes on with a mark that ends an expression, so it passes through the nesting. -/
namespace ConfigModules.Script

/-! ## The text after a literal -/

/-- The marks that end an expression inside a literal or a module. -/
def closingMarks : List String := [",", "]", "\x7d", ";"]

/-- What follows a literal: a separator, and as the next token a closing mark. -/
structure Closes (rest : List Char) (b : Ahead) : Prop where
  parted : Parted rest
  read : Ahead.read rest = some b
  token : ∃ m ∈ closingMarks, b.token = .mark m

/-- The text ahead where a mark of one character stands. -/
def atMark (c : Char) (cs : List Char) : Ahead := ⟨.mark (String.singleton c), false, c :: cs, cs⟩

@[simp] theorem next_atMark (c : Char) (cs : List Char) : (atMark c cs).next = Ahead.read cs := rfl

theorem read_atMark {c : Char} (h : Ahead.isLoneMark c = true) (cs : List Char) :
    Ahead.read (c :: cs) = some (atMark c cs) :=
  Ahead.read_loneMark h cs

theorem isMark_atMark (c : Char) (cs : List Char) (m : String) :
    (atMark c cs).isMark m = decide (String.singleton c = m) := by
  by_cases h : String.singleton c = m <;> simp [Ahead.isMark, atMark, h]

theorem closes_mark {c : Char} (hlone : Ahead.isLoneMark c = true) (hsep : c ∈ separators)
    (hclosing : String.singleton c ∈ closingMarks) (cs : List Char) :
    Closes (c :: cs) (atMark c cs) :=
  ⟨hsep, read_atMark hlone cs, _, hclosing, rfl⟩

theorem closes_space {c : Char} (hlone : Ahead.isLoneMark c = true)
    (hclosing : String.singleton c ∈ closingMarks) (cs : List Char) :
    Closes (' ' :: c :: cs) (atMark c cs) := by
  refine ⟨?_, ?_, _, hclosing, rfl⟩
  · exact List.mem_cons_self
  · rw [Ahead.read_space, read_atMark hlone cs]

namespace Closes

variable {rest : List Char} {b : Ahead} (h : Closes rest b)
include h

theorem isMark {m : String} (hm : m ∉ closingMarks) : b.isMark m = false := by
  obtain ⟨x, hx, htoken⟩ := h.token
  have hne : x ≠ m := fun e => hm (e ▸ hx)
  simp [Ahead.isMark, htoken, hne]

theorem beforeArrow : Grammar.beforeArrow b = false := by
  rw [Grammar.beforeArrow, h.isMark (by decide), Bool.false_and]

theorem binaryOperator? (c : Context) : Grammar.binaryOperator? c b = none := by
  obtain ⟨m, hm, htoken⟩ := h.token
  have hall : ∀ m ∈ closingMarks, Grammar.binaryMarks.contains m = false := by decide
  have hmark := hall m hm
  simp only [Grammar.binaryOperator?, htoken, hmark, Bool.false_eq_true, if_false]

theorem assign (g : Grammar) (c : Context) (e : Expression) :
    Grammar.assignmentStep.assign g c e b = some (e, b) := by
  obtain ⟨m, hm, htoken⟩ := h.token
  have hall : ∀ m ∈ closingMarks, Grammar.assigningMarks.contains m = false := by decide
  have hmark := hall m hm
  have hequals : b.isMark "=" = false := h.isMark (by decide)
  simp only [Grammar.assignmentStep.assign, hequals, htoken, hmark, Bool.false_eq_true, if_false]

theorem suffixes {g : Grammar} {fuel : Nat} (hfuel : 0 < fuel) (c : Context) (e : Expression) :
    g.suffixes true c fuel e b = some (e, b) := by
  obtain ⟨fuel, rfl⟩ := Nat.exists_eq_succ_of_ne_zero (Nat.ne_of_gt hfuel)
  have hdot : b.isMark "." = false := h.isMark (by decide)
  have hbracket : b.isMark "[" = false := h.isMark (by decide)
  have hquote : b.isMark "\x60" = false := h.isMark (by decide)
  have hparen : b.isMark "(" = false := h.isMark (by decide)
  have hchain : b.isMark "?." = false := h.isMark (by decide)
  simp [Grammar.suffixes, hdot, hbracket, hquote, hparen, hchain]

end Closes

/-! ## The first token of a literal -/

def literalWords : List String := ["null", "true", "false", "NaN", "Infinity"]

/-- Whether a token may be the first of a literal, given the marks that may. -/
def Starts (marks : List String) : Token → Prop
  | .number _ => True
  | .string _ => True
  | .name w escaped => escaped = false ∧ w ∈ literalWords
  | .mark m => m ∈ marks
  | _ => False

/-- The marks at the front of a literal without a sign. -/
def operandMarks : List String := ["[", "\x7b"]

namespace Starts

theorem isMark {marks : List String} {a : Ahead} (h : Starts marks a.token) {m : String}
    (hm : m ∉ marks) : a.isMark m = false := by
  cases htoken : a.token with
  | mark x =>
    rw [htoken] at h
    have hne : x ≠ m := fun e => hm (e ▸ h)
    simp [Ahead.isMark, htoken, hne]
  | _ => simp [Ahead.isMark, htoken]

theorem isWord {marks : List String} {a : Ahead} (h : Starts marks a.token) {w : String}
    (hw : w ∉ literalWords) : a.isWord w = false := by
  cases htoken : a.token with
  | name x escaped =>
    rw [htoken] at h
    have hne : x ≠ w := fun e => hw (e ▸ h.2)
    simp [Ahead.isWord, htoken, hne]
  | _ => simp [Ahead.isWord, htoken]

end Starts

/-! ## Operands -/

section Operand

variable {g : Grammar} {a b : Ahead} {e : Expression} {rest : List Char}

theorem leftHandSide_of_primary (ha : Starts operandMarks a.token) (hb : Closes rest b)
    (hg : 0 < g.fuel) (hp : g.primary .module a = some (e, b)) :
    g.leftHandSide .module a = some (e, b) := by
  have hnew : a.isWord "new" = false := ha.isWord (by decide)
  simp [Grammar.leftHandSide, hnew, hp, hb.suffixes hg]

theorem operand_of_primary (ha : Starts operandMarks a.token) (hb : Closes rest b)
    (hg : 0 < g.fuel) (hp : g.primary .module a = some (e, b)) (fuel : Nat) :
    g.operand .module (fuel + 1) a = some ((e, false), b) := by
  have hmarks : ∀ m ∉ operandMarks, a.isMark m = false := fun m => ha.isMark
  have hwords : ∀ w ∉ literalWords, a.isWord w = false := fun w => ha.isWord
  have hplus : b.isMark "++" = false := hb.isMark (by decide)
  have hminus : b.isMark "--" = false := hb.isMark (by decide)
  have hleft := leftHandSide_of_primary ha hb hg hp
  rw [Grammar.operand, hmarks "-" (by decide), hmarks "+" (by decide), hmarks "~" (by decide),
    hmarks "!" (by decide), hmarks "++" (by decide), hmarks "--" (by decide),
    hwords "typeof" (by decide), hwords "void" (by decide), hwords "delete" (by decide),
    hwords "await" (by decide)]
  simp [hleft, hplus, hminus]

theorem operand_signed (ha : Starts operandMarks a.token) (hb : Closes rest b)
    (hg : 2 ≤ g.fuel) (hp : g.primary .module a = some (e, b)) :
    g.operand .module g.fuel a = some ((e, false), b) ∧
      ∀ s : Ahead, s.isMark "-" = true → s.next = some a →
        g.operand .module g.fuel s = some ((.negation e, true), b) := by
  obtain ⟨fuel, hfuel⟩ : ∃ fuel, g.fuel = fuel + 2 := ⟨g.fuel - 2, by omega⟩
  have hg : 0 < g.fuel := by omega
  have hplain := operand_of_primary ha hb hg hp
  refine ⟨?_, fun s hs hnext => ?_⟩
  · rw [hfuel]
    exact hplain (fuel + 1)
  · rw [hfuel]
    rw [Grammar.operand, if_pos hs, hnext]
    simp [hplain fuel]

theorem conditional_of_operand (hb : Closes rest b) {unary : Bool}
    (ho : g.operand .module g.fuel a = some ((e, unary), b)) :
    g.conditional .module a = some (e, b) := by
  have hquestion : b.isMark "?" = false := hb.isMark (by decide)
  simp [Grammar.conditional, ho, hb.binaryOperator?, hquestion]

/-- Nothing after an operand makes it anything but what it is. -/
theorem assignmentStep_of_operand (hb : Closes rest b) {unary : Bool} (he : e.isComplete = true)
    (ho : g.operand .module g.fuel a = some ((e, unary), b)) :
    g.assignmentStep .module a = some (e, b) := by
  have hc := conditional_of_operand hb ho
  have harrow := hb.beforeArrow
  have hassign := hb.assign g .module e
  have hgenerator : Context.module.inGenerator = false := rfl
  cases e with
  | arrowHead => exact absurd he (by decide)
  | identifier w => simp [Grammar.assignmentStep, hgenerator, hc, harrow, hassign]
  | _ => simp [Grammar.assignmentStep, hgenerator, hc, hassign]

end Operand

/-! ## Literals -/

def literalMarks : List String := ["-", "[", "\x7b"]

/-- With `n` levels of nesting the text `cs` is read as `e`, up to the token `b`. -/
def ReadsAs (n : Nat) (cs : List Char) (e : Expression) (b : Ahead) : Prop :=
  ∃ a, Ahead.read cs = some a ∧ Starts literalMarks a.token ∧ assignmentAt n .module a = some (e, b)

theorem Starts.literal {t : Token} (h : Starts operandMarks t) : Starts literalMarks t := by
  cases t with
  | mark m => exact List.mem_cons_of_mem "-" h
  | _ => exact h

theorem assignmentAt_succ (n : Nat) (c : Context) (a : Ahead) :
    assignmentAt (n + 1) c a = (Grammar.atDepth n).assignmentStep c a := by
  rw [assignmentAt]
  rfl

section Leaf

variable {n : Nat} {cs rest : List Char} {a b : Ahead} {e : Expression}

theorem readsAs_operand (hread : Ahead.read cs = some a) (ha : Starts operandMarks a.token)
    (hb : Closes rest b) (hn : 2 ≤ n) (he : e.isComplete = true)
    (hp : (Grammar.atDepth n).primary .module a = some (e, b)) : ReadsAs (n + 1) cs e b := by
  refine ⟨a, hread, ha.literal, ?_⟩
  rw [assignmentAt_succ]
  exact assignmentStep_of_operand hb he (operand_signed ha hb hn hp).1

/-- A sign before an operand that begins with no sign. -/
theorem readsAs_signed (hread : Ahead.read cs = some a) (ha : Starts operandMarks a.token)
    (hb : Closes rest b) (hn : 2 ≤ n) (he : e.isComplete = true)
    (hp : (Grammar.atDepth n).primary .module a = some (e, b)) (negative : Bool)
    (hcs : ∃ c tail, cs = c :: tail ∧ c ≠ '-' ∧ c ≠ '=') :
    ReadsAs (n + 1) (Layout.sign negative ++ cs) (signed negative e) b := by
  cases negative with
  | false => exact readsAs_operand hread ha hb hn he hp
  | true =>
    obtain ⟨c, tail, rfl, hminus, hequals⟩ := hcs
    refine ⟨_, Ahead.read_minus hminus hequals tail, List.mem_cons_self, ?_⟩
    rw [assignmentAt_succ]
    exact assignmentStep_of_operand hb he ((operand_signed ha hb hn hp).2 _ rfl hread)

theorem readsAs_word {w : List Char} (hb : Closes rest b) (hn : 2 ≤ n) (he : e.isComplete = true)
    (hplain : isPlainKey w = true) (hword : String.ofList w ∈ literalWords)
    (hp : ∀ a : Ahead, a.next = some b →
      (Grammar.atDepth n).word .module (String.ofList w) false a = some (e, b)) :
    ReadsAs (n + 1) (w ++ rest) e b :=
  readsAs_operand (Ahead.read_name hplain hb.parted) ⟨rfl, hword⟩ hb hn he (hp _ hb.read)

/-- A string reads as itself, whatever spells it. -/
theorem readsAs_string {s : String} (hread : Ahead.read cs = some ⟨.string s, false, cs, rest⟩)
    (hb : Closes rest b) (hn : 2 ≤ n) : ReadsAs (n + 1) cs (.string s) b := by
  refine readsAs_operand hread trivial hb hn rfl ?_
  exact congrArg (Option.map _) hb.read

theorem readsAs_numeral (d : DecimalNumeral) (negative : Bool) (hb : Closes rest b) (hn : 2 ≤ n) :
    ReadsAs (n + 1) (Layout.sign negative ++ (d.chars ++ rest)) (signed negative (.number d.double)) b := by
  refine readsAs_signed (Ahead.read_numeral d hb.parted) trivial hb hn rfl ?_ negative ?_
  · exact congrArg (Option.map _) hb.read
  · obtain ⟨c, tail, hchars, hc⟩ := d.chars_start
    obtain ⟨_, _, _, hminus, hequals⟩ := Ahead.of_isDigit hc
    exact ⟨c, tail ++ rest, by rw [hchars]; rfl, hminus, hequals⟩

theorem readsAs_infinity (negative : Bool) (hb : Closes rest b) (hn : 2 ≤ n) :
    ReadsAs (n + 1) (Layout.sign negative ++ ("Infinity".toList ++ rest))
      (signed negative (.identifier "Infinity")) b := by
  have hread := Ahead.read_name (w := "Infinity".toList) (by decide) hb.parted
  refine readsAs_signed hread ⟨rfl, by decide⟩ hb hn rfl ?_ negative ?_
  · exact congrArg (Option.map _) (congrArg (Option.map _) hb.read)
  · exact ⟨'I', _, rfl, by decide, by decide⟩

theorem readsAs_nan (hb : Closes rest b) (hn : 2 ≤ n) :
    ReadsAs (n + 1) ("NaN".toList ++ rest) (.identifier "NaN") b := by
  have hread := Ahead.read_name (w := "NaN".toList) (by decide) hb.parted
  refine readsAs_operand hread ⟨rfl, by decide⟩ hb hn rfl ?_
  exact congrArg (Option.map _) (congrArg (Option.map _) hb.read)

/-- The text of a number reads as that number, whatever its notation. -/
theorem readsAs_number (x : Number) (hb : Closes rest b) (hn : 2 ≤ n) :
    ReadsAs (n + 1) (x.chars ++ rest) (numberExpression x) b := by
  have hinteger : ∀ i : Int, ReadsAs (n + 1) (Number.integerChars i ++ rest)
      (signed (i < 0) (.number (Double.ofNat i.natAbs))) b := by
    intro i
    have hread := readsAs_numeral (DecimalNumeral.ofNat i.natAbs) (i < 0) hb hn
    rwa [DecimalNumeral.chars_ofNat, DecimalNumeral.double_ofNat, ← List.append_assoc] at hread
  cases x with
  | unsigned m => exact hinteger m.toNat
  | signed i => exact hinteger i.toInt
  | real x =>
    cases x with
    | nan => exact readsAs_nan hb hn
    | infinite negative =>
      have hread := readsAs_infinity negative hb hn
      rwa [← List.append_assoc] at hread
    | finite negative rank =>
      obtain ⟨d, hchars, hdouble, _⟩ := DecimalNumeral.exists_magnitude rank
      have hread := readsAs_numeral d negative hb hn
      rwa [← hchars, hdouble, ← List.append_assoc] at hread

end Leaf

/-! ## The keys of a mapping -/

theorem isModifier_of_colon {a : Ahead} {cs : List Char} (h : a.next = some (atMark ':' cs))
    (w : String) (lineMatters : Bool) : Grammar.isModifier a w lineMatters = false := by
  have hcolon : (atMark ':' cs).token = .mark ":" := rfl
  simp [Grammar.isModifier, h, hcolon]

theorem isModifier_of_not_name {a : Ahead} (h : a.token.isName = false) (w : String)
    (lineMatters : Bool) : Grammar.isModifier a w lineMatters = false := by
  have hword : a.isWord w = false := by
    cases htoken : a.token with
    | name x escaped =>
      rw [htoken] at h
      cases h
    | _ => simp [Ahead.isWord, htoken]
  rw [Grammar.isModifier, hword, Bool.false_and]

theorem propertyKey_computed {n : Nat} (hn : 2 ≤ n) {s : String} {text cs : List Char} {b : Ahead}
    (hs : Ahead.read text = some ⟨.string s, false, text, ']' :: cs⟩) (hb : Ahead.read cs = some b) :
    (Grammar.atDepth (n + 1)).propertyKey .module (atMark '[' text) = some ((.string s, true), b) := by
  have hcloses : Closes (']' :: cs) (atMark ']' cs) := closes_mark rfl (by decide) (by decide) cs
  obtain ⟨a, hread, _, hassign⟩ := readsAs_string hs hcloses hn
  have hin : Context.module.withIn = .module := rfl
  have htoken : ∀ cs, (atMark '[' cs).token = .mark "[" := fun _ => rfl
  have hend : (atMark ']' cs).isMark "]" = true := rfl
  have hg : (Grammar.atDepth (n + 1)).assignment = assignmentAt (n + 1) := rfl
  simp [Grammar.propertyKey, htoken, hread, hin, hg, hassign, Expression.isComplete, Ahead.expect,
    hend, hb]

/-- What an object may begin a member with instead of a key, and the end of the object. -/
def memberMarks : List String := ["\x7d", "...", "*"]

/-- With `n` levels of nesting the text `cs` is read as a key, up to the token `b`, and nothing else is seen
in it. -/
def ReadsKey (n : Nat) (cs : List Char) (key : PropertyKey × Bool) (b : Ahead) : Prop :=
  ∃ a, Ahead.read cs = some a ∧ (Grammar.atDepth n).propertyKey .module a = some (key, b) ∧
    (∀ m ∈ memberMarks, a.isMark m = false) ∧ ∀ w lineMatters, Grammar.isModifier a w lineMatters = false

section Key

variable {n : Nat} {s : String} {text cs : List Char} {b : Ahead}

theorem readsKey_string (hs : Ahead.read text = some ⟨.string s, false, text, cs⟩)
    (hb : Ahead.read cs = some b) : ReadsKey n text (.string s, false) b := by
  refine ⟨_, hs, ?_, ?_, isModifier_of_not_name rfl⟩
  · exact congrArg (Option.map _) hb
  · simp [Ahead.isMark]

theorem readsKey_computed (hn : 3 ≤ n) (hs : Ahead.read text = some ⟨.string s, false, text, ']' :: cs⟩)
    (hb : Ahead.read cs = some b) : ReadsKey n ('[' :: text) (.string s, true) b := by
  obtain ⟨m, rfl⟩ : ∃ m, n = m + 1 := ⟨n - 1, by omega⟩
  refine ⟨_, read_atMark rfl _, propertyKey_computed (by omega) hs hb, ?_, isModifier_of_not_name rfl⟩
  simp [isMark_atMark, memberMarks]

end Key

/-- A key is read up to its colon. -/
theorem readsKey_key {n : Nat} (hn : 3 ≤ n) (k : String) (cs : List Char) :
    ReadsKey n (key k (':' :: cs)) (literalKey k) (atMark ':' cs) := by
  have hcolon : Ahead.read (':' :: cs) = some (atMark ':' cs) := read_atMark rfl cs
  have hparted : Parted (':' :: cs) := (by decide : ':' ∈ separators)
  have hquoted := fun rest => Ahead.read_quoted k.toList rest
  simp only [String.ofList_toList] at hquoted
  unfold key literalKey
  split_ifs with hproto hplain
  · exact readsKey_computed hn (hquoted _) hcolon
  · refine ⟨_, Ahead.read_name hplain hparted, ?_, ?_, isModifier_of_colon hcolon⟩
    · rw [String.ofList_toList]
      exact congrArg (Option.map _) hcolon
    · simp [Ahead.isMark]
  · exact readsKey_string (hquoted _) hcolon

/-! ## Sequences and mappings -/

namespace Grammar

/-- What is read after an element of an array. -/
def afterElement (g : Grammar) (c : Context) (fuel : Nat) (done : List Element) (a : Ahead) :
    Option (List Element × Ahead) := do
  if a.isMark "," then g.elements c fuel done (← a.next)
  else return (done.reverse, ← a.expect "]")

/-- What is read after a member of an object. -/
def afterMember (g : Grammar) (c : Context) (fuel : Nat) (done : List Member) (a : Ahead) :
    Option (List Member × Ahead) := do
  if a.isMark "," then g.members c fuel done (← a.next)
  else return (done.reverse, ← a.expect "\x7d")

theorem elements_item {n : Nat} {cs : List Char} {e : Expression} {b : Ahead}
    (h : ReadsAs n cs e b) (fuel : Nat) (done : List Element) :
    ∃ a, Ahead.read cs = some a ∧ (atDepth n).elements .module (fuel + 1) done a =
      (atDepth n).afterElement .module fuel (.item e :: done) b := by
  obtain ⟨a, hread, ha, hassign⟩ := h
  refine ⟨a, hread, ?_⟩
  have hend : a.isMark "]" = false := ha.isMark (by decide)
  have hhole : a.isMark "," = false := ha.isMark (by decide)
  have hspread : a.isMark "..." = false := ha.isMark (by decide)
  have hin : Context.module.withIn = .module := rfl
  have hg : (atDepth n).assignment = assignmentAt n := rfl
  simp [elements, hend, hhole, hspread, hin, hg, hassign, afterElement]

theorem members_entry {n : Nat} {text cs : List Char} {k : PropertyKey × Bool} {e : Expression} {b : Ahead}
    (hk : ReadsKey n text k (atMark ':' (' ' :: cs))) (h : ReadsAs n cs e b) (fuel : Nat)
    (done : List Member) :
    ∃ a, Ahead.read text = some a ∧ (atDepth n).members .module (fuel + 1) done a =
      (atDepth n).afterMember .module fuel (.property k.1 k.2 e :: done) b := by
  obtain ⟨a, hread, hkey, hmarks, hmodifier⟩ := hk
  refine ⟨a, hread, ?_⟩
  obtain ⟨v, hvread, _, hassign⟩ := h
  have hend : a.isMark "\x7d" = false := hmarks _ (by decide)
  have hspread : a.isMark "..." = false := hmarks _ (by decide)
  have hstar : a.isMark "*" = false := hmarks _ (by decide)
  have hin : Context.module.withIn = .module := rfl
  have hg : (atDepth n).assignment = assignmentAt n := rfl
  have hcolon : (atMark ':' (' ' :: cs)).isMark ":" = true := rfl
  have hmember : (atDepth n).member .module a = some (.property k.1 k.2 e, b) := by
    simp [member, hspread, hstar, hmodifier, property, hkey, hcolon, hvread, hin, hg, hassign]
  simp [members, hend, hmember, afterMember]

section After

variable (g : Grammar) (c : Context) (fuel : Nat) {cs : List Char} {a : Ahead}
  (h : Ahead.read cs = some a)
include h

theorem afterElement_comma (done : List Element) :
    g.afterElement c fuel done (atMark ',' (' ' :: cs)) = g.elements c fuel done a := by
  have hcomma : (atMark ',' (' ' :: cs)).isMark "," = true := rfl
  simp [afterElement, hcomma, h]

theorem afterElement_bracket (done : List Element) :
    g.afterElement c fuel done (atMark ']' cs) = some (done.reverse, a) := by
  have hcomma : (atMark ']' cs).isMark "," = false := rfl
  have hend : (atMark ']' cs).isMark "]" = true := rfl
  simp [afterElement, hcomma, Ahead.expect, hend, h]

theorem afterMember_comma (done : List Member) :
    g.afterMember c fuel done (atMark ',' (' ' :: cs)) = g.members c fuel done a := by
  have hcomma : (atMark ',' (' ' :: cs)).isMark "," = true := rfl
  simp [afterMember, hcomma, h]

theorem afterMember_brace (done : List Member) :
    g.afterMember c fuel done (atMark '\x7d' cs) = some (done.reverse, a) := by
  have hcomma : (atMark '\x7d' cs).isMark "," = false := rfl
  have hend : (atMark '\x7d' cs).isMark "\x7d" = true := rfl
  simp [afterMember, hcomma, Ahead.expect, hend, h]

end After

end Grammar

theorem length_le_quotedTail (s rest : List Char) : rest.length ≤ (quotedTail s rest).length := by
  induction s with
  | nil => exact Nat.le_succ _
  | cons c s ih =>
    rw [quotedTail, List.length_append]
    omega

theorem length_le_key (k : String) (rest : List Char) : rest.length ≤ (key k rest).length := by
  have htail := length_le_quotedTail k.toList rest
  have hcomputed := length_le_quotedTail k.toList (']' :: rest)
  unfold key quoted
  split_ifs
  · simp only [List.length_cons] at *
    omega
  · rw [List.length_append]
    omega
  · rw [List.length_cons]
    omega

mutual

theorem length_le_literal : (v : Value) → (rest : List Char) → rest.length ≤ (literal v rest).length
  | .null, rest => by simp [literal]; omega
  | .boolean true, rest => by simp [literal]; omega
  | .boolean false, rest => by simp [literal]; omega
  | .number _, rest => by simp [literal]
  | .string s, rest => Nat.le_succ_of_le (length_le_quotedTail s.toList rest)
  | .sequence [], rest => by simp [literal]; omega
  | .sequence (v :: vs), rest => by
    have hv := length_le_literal v (moreItems vs rest)
    have hvs := length_le_moreItems vs rest
    simp only [literal, List.length_cons]
    omega
  | .mapping [], rest => by simp [literal]; omega
  | .mapping ((k, v) :: es), rest => by
    have hk := length_le_key k (':' :: ' ' :: literal v (moreEntries es rest))
    have hv := length_le_literal v (moreEntries es rest)
    have hes := length_le_moreEntries es rest
    simp only [literal, List.length_cons] at *
    omega

theorem length_le_moreItems :
    (items : List Value) → (rest : List Char) → rest.length ≤ (moreItems items rest).length
  | [], rest => by simp [moreItems]; omega
  | v :: vs, rest => by
    have hv := length_le_literal v (moreItems vs rest)
    have hvs := length_le_moreItems vs rest
    simp only [moreItems, List.length_cons]
    omega

theorem length_le_moreEntries :
    (entries : List (String × Value)) → (rest : List Char) →
      rest.length ≤ (moreEntries entries rest).length
  | [], rest => by simp [moreEntries]; omega
  | (k, v) :: es, rest => by
    have hk := length_le_key k (':' :: ' ' :: literal v (moreEntries es rest))
    have hv := length_le_literal v (moreEntries es rest)
    have hes := length_le_moreEntries es rest
    simp only [moreEntries, List.length_cons] at *
    omega

end

section Bracketed

variable {n : Nat} {rest : List Char} {b : Ahead} (hb : Closes rest b)
include hb

theorem readsAs_array {cs : List Char} {a : Ahead} {es : List Element} (hread : Ahead.read cs = some a)
    (hes : (Grammar.atDepth n).elements .module n [] a = some (es, b))
    (hcomplete : elementsComplete es = true) (hn : 2 ≤ n) : ReadsAs (n + 1) ('[' :: cs) (.array es) b := by
  refine readsAs_operand (read_atMark rfl cs) (by decide : "[" ∈ operandMarks) hb hn hcomplete ?_
  have hopen : (atMark '[' cs).expect "[" = some a := hread
  have hfuel : (Grammar.atDepth n).fuel = n := rfl
  have harray : (Grammar.atDepth n).array .module (atMark '[' cs) = some (.array es, b) := by
    simp [Grammar.array, hopen, hfuel, hes]
  exact harray

theorem readsAs_object {cs : List Char} {a : Ahead} {ms : List Member} (hread : Ahead.read cs = some a)
    (hms : (Grammar.atDepth n).members .module n [] a = some (ms, b))
    (hcomplete : membersComplete ms = true) (hn : 2 ≤ n) :
    ReadsAs (n + 1) ('\x7b' :: cs) (.object ms) b := by
  refine readsAs_operand (read_atMark rfl cs) (by decide : "\x7b" ∈ operandMarks) hb hn hcomplete ?_
  have hopen : (atMark '\x7b' cs).expect "\x7b" = some a := hread
  have hfuel : (Grammar.atDepth n).fuel = n := rfl
  have hobject : (Grammar.atDepth n).object .module (atMark '\x7b' cs) = some (.object ms, b) := by
    simp [Grammar.object, hopen, hfuel, hms]
  exact hobject

end Bracketed

mutual

/-- The grammar reads the text of a value as its expression, whatever closes it. -/
theorem readsAs_literal : (v : Value) → {n : Nat} → {rest : List Char} → {b : Ahead} →
    (literal v rest).length + 3 ≤ n → Closes rest b →
    ReadsAs n (literal v rest) (literalExpression v) b
  | v, 0, _, _, hn, _ => by omega
  | .null, n + 1, rest, b, hn, hb =>
    readsAs_word (w := "null".toList) hb (by omega) rfl (by decide) (by decide)
      fun _ ha => congrArg (Option.map _) ha
  | .boolean true, n + 1, rest, b, hn, hb =>
    readsAs_word (w := "true".toList) hb (by omega) rfl (by decide) (by decide)
      fun _ ha => congrArg (Option.map _) ha
  | .boolean false, n + 1, rest, b, hn, hb =>
    readsAs_word (w := "false".toList) hb (by omega) rfl (by decide) (by decide)
      fun _ ha => congrArg (Option.map _) ha
  | .number x, n + 1, rest, b, hn, hb => readsAs_number x hb (by omega)
  | .string s, n + 1, rest, b, hn, hb => by
    have hs := readsAs_string (Ahead.read_quoted s.toList rest) hb (n := n) (by omega)
    rwa [String.ofList_toList] at hs
  | .sequence [], n + 1, rest, b, hn, hb => by
    obtain ⟨n, rfl⟩ : ∃ m, n = m + 1 := ⟨n - 1, by omega⟩
    refine readsAs_array hb (read_atMark rfl rest) ?_ rfl (by omega)
    have hend : (atMark ']' rest).isMark "]" = true := rfl
    simp [Grammar.elements, hend, hb.read, literalElements]
  | .sequence (v :: vs), n + 1, rest, b, hn, hb => by
    obtain ⟨n, rfl⟩ : ∃ m, n = m + 1 := ⟨n - 1, by omega⟩
    simp only [literal, List.length_cons] at hn
    have hlength := length_le_literal v (moreItems vs rest)
    obtain ⟨d, hcloses, hmore⟩ := afterElement_moreItems vs (n + 1) n
      [.item (literalExpression v)] (by omega) (by omega) hb.read
    have hv := readsAs_literal v (n := n + 1) (by omega) hcloses
    obtain ⟨a, hread, hitem⟩ := Grammar.elements_item hv n []
    have hcomplete := elementsComplete_literalElements (v :: vs)
    refine readsAs_array hb ((Ahead.read_space _).trans hread) ?_ hcomplete (by omega)
    rw [hitem, hmore]
    rfl
  | .mapping [], n + 1, rest, b, hn, hb => by
    obtain ⟨n, rfl⟩ : ∃ m, n = m + 1 := ⟨n - 1, by omega⟩
    refine readsAs_object hb (read_atMark rfl rest) ?_ rfl (by omega)
    have hend : (atMark '\x7d' rest).isMark "\x7d" = true := rfl
    simp [Grammar.members, hend, hb.read, literalMembers]
  | .mapping ((k, v) :: es), n + 1, rest, b, hn, hb => by
    obtain ⟨n, rfl⟩ : ∃ m, n = m + 1 := ⟨n - 1, by omega⟩
    simp only [literal, List.length_cons] at hn
    have hkey := length_le_key k (':' :: ' ' :: literal v (moreEntries es rest))
    have hlength := length_le_literal v (moreEntries es rest)
    simp only [List.length_cons] at hkey
    obtain ⟨d, hcloses, hmore⟩ := afterMember_moreEntries es (n + 1) n
      [.property (literalKey k).1 (literalKey k).2 (literalExpression v)] (by omega) (by omega) hb.read
    have hv := readsAs_literal v (n := n + 1) (by omega) hcloses
    obtain ⟨a, hread, hentry⟩ := Grammar.members_entry (readsKey_key (by omega) k _) hv n []
    have hcomplete := membersComplete_literalMembers ((k, v) :: es)
    refine readsAs_object hb ((Ahead.read_space _).trans hread) ?_ hcomplete (by omega)
    rw [hentry, hmore]
    rfl

theorem afterElement_moreItems : (vs : List Value) → (n fuel : Nat) → {rest : List Char} →
    {b : Ahead} → (done : List Element) → (moreItems vs rest).length + 3 ≤ n →
    (moreItems vs rest).length ≤ fuel → Ahead.read rest = some b →
    ∃ a, Closes (moreItems vs rest) a ∧ (Grammar.atDepth n).afterElement .module fuel done a =
      some (done.reverse ++ literalElements vs, b)
  | [], n, fuel, rest, b, done, _, _, hb => by
    refine ⟨_, closes_space rfl (by decide) rest, ?_⟩
    rw [Grammar.afterElement_bracket _ _ _ hb, literalElements, List.append_nil]
  | v :: vs, n, 0, rest, b, done, _, hfuel, _ => absurd hfuel (Nat.not_succ_le_zero _)
  | v :: vs, n, fuel + 1, rest, b, done, hn, hfuel, hb => by
    simp only [moreItems, List.length_cons] at hn hfuel
    have hlength := length_le_literal v (moreItems vs rest)
    obtain ⟨d, hcloses, hmore⟩ := afterElement_moreItems vs n fuel
      (.item (literalExpression v) :: done) (by omega) (by omega) hb
    have hv := readsAs_literal v (n := n) (by omega) hcloses
    obtain ⟨a, hread, hitem⟩ := Grammar.elements_item hv fuel done
    refine ⟨_, closes_mark rfl (by decide) (by decide) _, ?_⟩
    rw [Grammar.afterElement_comma _ _ _ hread, hitem, hmore, List.reverse_cons, List.append_assoc]
    rfl

theorem afterMember_moreEntries : (es : List (String × Value)) → (n fuel : Nat) →
    {rest : List Char} → {b : Ahead} → (done : List Member) →
    (moreEntries es rest).length + 3 ≤ n → (moreEntries es rest).length ≤ fuel →
    Ahead.read rest = some b →
    ∃ a, Closes (moreEntries es rest) a ∧ (Grammar.atDepth n).afterMember .module fuel done a =
      some (done.reverse ++ literalMembers es, b)
  | [], n, fuel, rest, b, done, _, _, hb => by
    refine ⟨_, closes_space rfl (by decide) rest, ?_⟩
    rw [Grammar.afterMember_brace _ _ _ hb, literalMembers, List.append_nil]
  | (k, v) :: es, n, 0, rest, b, done, _, hfuel, _ => absurd hfuel (Nat.not_succ_le_zero _)
  | (k, v) :: es, n, fuel + 1, rest, b, done, hn, hfuel, hb => by
    simp only [moreEntries, List.length_cons] at hn hfuel
    have hkey := length_le_key k (':' :: ' ' :: literal v (moreEntries es rest))
    have hlength := length_le_literal v (moreEntries es rest)
    simp only [List.length_cons] at hkey
    obtain ⟨d, hcloses, hmore⟩ := afterMember_moreEntries es n fuel
      (.property (literalKey k).1 (literalKey k).2 (literalExpression v) :: done) (by omega) (by omega) hb
    have hv := readsAs_literal v (n := n) (by omega) hcloses
    obtain ⟨a, hread, hentry⟩ := Grammar.members_entry (readsKey_key (by omega) k _) hv fuel done
    refine ⟨_, closes_mark rfl (by decide) (by decide) _, ?_⟩
    rw [Grammar.afterMember_comma _ _ _ hread, hentry, hmore, List.reverse_cons, List.append_assoc]
    rfl

end

end ConfigModules.Script
