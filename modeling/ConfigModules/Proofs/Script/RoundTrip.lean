import ConfigModules.Proofs.Script.LiteralGrammar

/-! The module of a value is read back. It parses to one default export of the value's expression, and
evaluates to the value as a script observes it. -/
namespace ConfigModules.Script

/-! ## Modules -/

section Module

variable {a b : Ahead}

/-- The text ahead where a word and a space stand. -/
def atWord (w : String) (cs : List Char) : Ahead :=
  ⟨.name w false, false, w.toList ++ ' ' :: cs, ' ' :: cs⟩

theorem read_atWord {w : String} (hw : isPlainKey w.toList = true) (cs : List Char) :
    Ahead.read (w.toList ++ ' ' :: cs) = some (atWord w cs) := by
  have hparted : Parted (' ' :: cs) := (by decide : ' ' ∈ separators)
  have hread := Ahead.read_name hw hparted
  rwa [String.ofList_toList] at hread

theorem next_atWord (w : String) (cs : List Char) : (atWord w cs).next = Ahead.read cs :=
  Ahead.read_space cs

theorem namedDeclaration_of_starts (g : Grammar) (nameNeeded : Bool)
    (ha : Starts literalMarks a.token) : g.namedDeclaration nameNeeded .module a = none := by
  have hfunction : a.isWord "function" = false := ha.isWord (by decide)
  have hasync : a.isWord "async" = false := ha.isWord (by decide)
  have hclass : a.isWord "class" = false := ha.isWord (by decide)
  have hdecorator : a.isMark "@" = false := ha.isMark (by decide)
  simp [Grammar.namedDeclaration, hfunction, hasync, hclass, hdecorator]

def atEnd : Ahead := ⟨.eof, false, [], []⟩

theorem exportDefault_complete {n : Nat} {e : Expression} (he : e.isComplete = true)
    (ha : Starts literalMarks a.token) (hassign : assignmentAt n .module a = some (e, atMark ';' [])) :
    (Grammar.atDepth n).exportDefault .module a = some (.exportDefault e, atEnd) := by
  have hnone := namedDeclaration_of_starts (Grammar.atDepth n) false ha
  have hg : (Grammar.atDepth n).assignment = assignmentAt n := rfl
  have hend : (atMark ';' []).semicolon = some atEnd := rfl
  simp [Grammar.exportDefault, hnone, hg, hassign, he, hend]

/-- The text that stands before the value in a module. -/
def head (cs : List Char) : List Char := "export".toList ++ ' ' :: ("default".toList ++ ' ' :: cs)

def atExport (cs : List Char) : Ahead := atWord "export" ("default".toList ++ ' ' :: cs)

theorem read_head (cs : List Char) : Ahead.read (head cs) = some (atExport cs) :=
  read_atWord (by decide) _

theorem moduleItem_atExport {g : Grammar} {cs : List Char} {s : Statement} {d : Ahead}
    (hread : Ahead.read cs = some a) (hexport : g.exportDefault .module a = some (s, d)) :
    g.moduleItem .module (atExport cs) = some (s, d) := by
  have hsemicolon : (atExport cs).isMark ";" = false := rfl
  have hword : (atExport cs).isWord "export" = true := rfl
  have hnext : (atExport cs).next = some (atWord "default" cs) :=
    (next_atWord _ _).trans (read_atWord (by decide) cs)
  have hdefault : (atWord "default" cs).isWord "default" = true := rfl
  have hvalue : (atWord "default" cs).next = some a := (next_atWord _ _).trans hread
  simp [Grammar.moduleItem, hsemicolon, hword, hnext, Grammar.exportStatement, hdefault, hvalue,
    hexport]

theorem skipDirectives_atExport (g : Grammar) (fuel : Nat) (cs : List Char) :
    g.skipDirectives .module (fuel + 1) (atExport cs) = some (atExport cs) :=
  rfl

theorem moduleItems_single {g : Grammar} {cs : List Char} {s : Statement}
    (hitem : g.moduleItem .module (atExport cs) = some (s, atEnd)) (fuel : Nat) :
    g.moduleItems .module (fuel + 2) [] (atExport cs) = some [s] := by
  have hstart : (atExport cs).token ≠ .eof := Token.noConfusion
  have hend : atEnd.token = .eof := rfl
  simp [Grammar.moduleItems, hstart, hitem, hend]

end Module

theorem length_le_head (cs : List Char) : cs.length ≤ (head cs).length := by
  have hsuffix : cs <:+ head cs :=
    ((List.suffix_cons _ _).trans (List.suffix_append _ _)).trans
      ((List.suffix_cons _ _).trans (List.suffix_append _ _))
  exact hsuffix.length_le

theorem withoutHead_head (cs : List Char) : withoutHead (head cs) = head cs := rfl

theorem moduleStatements_head {cs : List Char} {a : Ahead} {s : Statement}
    (hread : Ahead.read cs = some a)
    (hexport : ∀ n, cs.length + 3 ≤ n →
      (Grammar.atDepth n).exportDefault .module a = some (s, atEnd)) :
    moduleStatements (head cs) = some [s] := by
  obtain ⟨n, hn⟩ : ∃ n, n + 2 = 2 * (head cs).length + 16 := ⟨2 * (head cs).length + 14, by omega⟩
  have hlength := length_le_head cs
  have hitem := moduleItem_atExport hread (hexport (n + 2) (by omega))
  have hfuel : (Grammar.atDepth (n + 2)).fuel = n + 2 := rfl
  rw [moduleStatements, ← hn, withoutHead_head, read_head]
  simp only [Option.bind_eq_bind, Option.bind_some, hfuel]
  rw [skipDirectives_atExport, Option.bind_some, moduleItems_single hitem]

/-- A module that exports a text up to its semicolon has one statement, the default export of the expression
that the text is read as. -/
theorem parseModule_head {cs : List Char} {e : Expression} (he : e.isComplete = true)
    (h : ∀ n, cs.length + 3 ≤ n → ReadsAs n cs e (atMark ';' [])) :
    parseModule (head cs) = .ok [.exportDefault e] := by
  obtain ⟨a, hread, _⟩ := h _ (Nat.le_refl _)
  have hstatements := moduleStatements_head hread fun n hn => by
    obtain ⟨a', hread', ha, hassign⟩ := h n hn
    obtain rfl : a' = a := Option.some.inj (hread'.symm.trans hread)
    exact exportDefault_complete he ha hassign
  rw [parseModule, hstatements]
  rfl

theorem closes_semicolon : Closes [';'] (atMark ';' []) := closes_mark rfl (by decide) (by decide) []

theorem append_head (cs : List Char) : "export default ".toList ++ cs = head cs := by
  have hwords : "export default ".toList = "export".toList ++ ' ' :: ("default".toList ++ [' ']) := by
    decide
  rw [hwords, List.append_assoc, List.cons_append, List.append_assoc]
  rfl

theorem toList_moduleText (v : Value) : (moduleText v).toList = head (literal v [';']) :=
  String.toList_ofList.trans (append_head _)

/-- The module of a value has one statement, the default export of the value's expression. -/
theorem parseModule_moduleText (v : Value) :
    parseModule (moduleText v).toList = .ok [.exportDefault (literalExpression v)] := by
  rw [toList_moduleText]
  exact parseModule_head (isComplete_literalExpression v) fun n hn => readsAs_literal v hn closes_semicolon

/-- A module evaluates to the value that it was made from, with its numbers as a script observes
them. -/
theorem evaluate_moduleText {v : Value} (h : v.KeysDistinct) :
    evaluate (moduleText v) = .ok (v.mapNumbers observed) := by
  rw [evaluate, evaluateChars, parseModule_moduleText]
  simp [evaluateStatements, evaluate_literalExpression v h]

/-- Every value survives its module: shape, strings, keys and order are kept, and what becomes of a
number is what becomes of it on its own. -/
theorem values_survive_module : ∃ f : Number → Number,
    (∀ n, evaluate (moduleText (.number n)) = .ok (.number (f n))) ∧
      ∀ v : Value, v.KeysDistinct → evaluate (moduleText v) = .ok (v.mapNumbers f) :=
  ⟨observed, fun _ => evaluate_moduleText trivial, fun _ => evaluate_moduleText⟩

/-- Keys that need quotes, escapes or brackets, next to each other. -/
theorem hostile_keys_survive_module : ∃ f : Number → Number,
    evaluate (moduleText (.mapping [("", .null), ("__proto__", .sequence [.number (.signed (-1))]),
      ("class", .mapping []), ("\x22\\\n", .string "\u2028")])) =
    .ok (.mapping [("", .null), ("__proto__", .sequence [.number (f (.signed (-1)))]),
      ("class", .mapping []), ("\x22\\\n", .string "\u2028")]) := by
  obtain ⟨f, _, hvalues⟩ := values_survive_module
  refine ⟨f, hvalues _ ⟨?_, ?_⟩⟩
  · decide
  · simp [Value.EntriesDistinct, Value.KeysDistinct, Value.ItemsDistinct]

/-! ## Numbers -/

/-- The notations of numbers: exact digits for integers, and for doubles the two words or a decimal
numeral of the same double. -/
def HasNotation : Number → String → Prop
  | .unsigned n, text => text = toString n.toNat ∧ text.length ≤ 20
  | .signed i, text => text = toString i.toInt ∧ text.length ≤ 20
  | .real .nan, text => text = "NaN"
  | .real (.infinite negative), text => text.toList = Layout.sign negative ++ "Infinity".toList
  | .real (.finite negative rank), text =>
    ∃ d : DecimalNumeral, text.toList = Layout.sign negative ++ d.chars ∧
      d.double = .finite false rank ∧ d.InScriptForm

theorem ofList_integerChars (i : Int) : String.ofList (Number.integerChars i) = toString i := by
  apply String.toList_inj.mp
  rw [String.toList_ofList, Int.toString_eq_repr, Int.repr_eq_if, Number.integerChars, Layout.digitsOf]
  by_cases h : i < 0
  · have habs : (-i).toNat = i.natAbs := by omega
    rw [if_neg (Int.not_le.mpr h), habs, String.toList_append, Nat.toList_repr]
    simp [Layout.sign, h]
  · have habs : i.toNat = i.natAbs := by omega
    rw [if_pos (Int.not_lt.mp h), habs, Nat.toList_repr]
    simp [Layout.sign, h]

theorem length_integerChars {i : Int} (hlow : -(10 : Int) ^ 19 < i) (hhigh : i < 10 ^ 20) :
    (Number.integerChars i).length ≤ 20 := by
  have hdigits : ∀ k, 0 < k → i.natAbs < 10 ^ k → (Layout.digitsOf i.natAbs).length ≤ k :=
    fun k hk h => (Nat.length_toDigits_le_iff (by decide) hk).mpr h
  rw [Number.integerChars, List.length_append]
  by_cases h : i < 0
  · have hlength := hdigits 19 (by decide) (by omega)
    have hsign : (Layout.sign (decide (i < 0))).length = 1 := by simp [Layout.sign, h]
    omega
  · have hlength := hdigits 20 (by decide) (by omega)
    have hsign : (Layout.sign (decide (i < 0))).length = 0 := by simp [Layout.sign, h]
    omega

theorem hasNotation_text (n : Number) : HasNotation n n.text := by
  cases n with
  | unsigned n =>
    have hbound := n.toNat_lt
    have hlength := length_integerChars (i := n.toNat) (by omega) (by omega)
    refine ⟨ofList_integerChars n.toNat, ?_⟩
    rwa [Number.text, String.length_ofList]
  | signed i =>
    have hlow := i.le_toInt
    have hhigh := i.toInt_lt
    have hlength := length_integerChars (i := i.toInt) (by omega) (by omega)
    refine ⟨ofList_integerChars i.toInt, ?_⟩
    rwa [Number.text, String.length_ofList]
  | real x =>
    cases x with
    | nan => exact String.ofList_toList
    | infinite negative => exact String.toList_ofList
    | finite negative rank =>
      obtain ⟨d, hchars, hd⟩ := DecimalNumeral.exists_magnitude rank
      refine ⟨d, ?_, hd⟩
      rw [← hchars]
      exact String.toList_ofList

theorem same_observed (n : Number) : (observed n).same n = true := by
  have hdouble : (observed n).asDouble = n.asDouble := rfl
  rw [Number.same, hdouble]
  cases n.asDouble with
  | nan => rfl
  | infinite negative => simp [Double.numericallyEqual]
  | finite negative rank => simp [Double.numericallyEqual]

theorem moduleText_number (n : Number) :
    moduleText (.number n) = "export default " ++ n.text ++ ";" := by
  have hjoin : ∀ (before after : String) (cs : List Char),
      String.ofList (before.toList ++ (cs ++ after.toList)) = before ++ String.ofList cs ++ after := by
    intro before after cs
    apply String.toList_inj.mp
    rw [String.toList_ofList, String.toList_append, String.toList_append, String.toList_ofList,
      List.append_assoc]
  exact hjoin "export default " ";" n.chars

/-- Every number survives its module as the double that a script observes, in each of the three
notations and after a minus. -/
theorem numbers_survive_module (n : Number) :
    moduleText (.number n) = "export default " ++ n.text ++ ";" ∧ HasNotation n n.text ∧
      parseModule (moduleText (.number n)).toList = .ok [.exportDefault (numberExpression n)] ∧
      evaluate (moduleText (.number n)) = .ok (.number (.real n.asDouble)) ∧
      (Number.real n.asDouble).same n = true :=
  ⟨moduleText_number n, hasNotation_text n, parseModule_moduleText _, evaluate_moduleText trivial,
    same_observed n⟩

end ConfigModules.Script
