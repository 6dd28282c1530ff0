import ConfigModules.Proofs.Script.StringValue
import ConfigModules.Proofs.Script.DataModule
import ConfigModules.Proofs.Check

/-! Modules that export a string literal, and objects whose keys are string literals. The strings that come out
are compared by what is kept of the literals, so two literals are told apart unless one has as characters what
are marks in the other; and a pair that is spelled in two is not the character that it makes up. -/
namespace ConfigModules.Script

open StringText

/-! ## Literals and their modules -/

namespace StringLiteral

def chars (a : StringLiteral) : List Char := a.quote :: a.body

/-- What the reader keeps of a literal. -/
def kept (a : StringLiteral) : List TextPart :=
  ((parts? a.quote (a.body.length + 1) a.body).map Prod.fst).getD []

/-- The text of a literal in a value. -/
def value (a : StringLiteral) : String := String.ofList (TextPart.text a.kept)

/-- The module whose default export is the literal. -/
def exported (a : StringLiteral) : String := "export default " ++ String.ofList a.chars ++ ";"

theorem kept_spec (a : StringLiteral) :
    TextPart.MakeUp a.kept a.units ∧
      ∀ rest fuel, a.body.length < fuel → parts? a.quote fuel (a.body ++ rest) = some (a.kept, rest) := by
  have hquote : a.quote ≠ '\\' := by
    rcases a.isQuote with h | h <;> rw [h] <;> decide
  obtain ⟨parts, hparts, hread⟩ := a.spells.exists_parts hquote
  have hkept : a.kept = parts := by
    have hall := hread [] (a.body.length + 1) (Nat.lt_succ_self _)
    rw [List.append_nil] at hall
    rw [kept, hall]
    rfl
  exact hkept ▸ ⟨hparts, hread⟩

theorem sound_kept (a : StringLiteral) : ∀ p ∈ a.kept, p.IsSound := a.kept_spec.1.sound

theorem units_kept (a : StringLiteral) : a.kept.flatMap TextPart.units = a.units := a.kept_spec.1.units

/-- A literal is one token, whatever follows it. -/
theorem read (a : StringLiteral) (rest : List Char) :
    Ahead.read (a.chars ++ rest) = some ⟨.string a.value, false, a.chars ++ rest, rest⟩ := by
  have hread : read? a.quote (a.body ++ rest) = some (a.value, rest) := by
    rw [read?, a.kept_spec.2 rest _ (by rw [List.length_append]; omega)]
    rfl
  have hquote : a.quote = '\x22' ∨ a.quote = '\x27' := a.isQuote
  have hsolid : Ahead.Solid a.quote ∧ Ahead.isLoneMark a.quote = false := by
    rcases hquote with h | h <;> rw [h] <;> decide
  have htoken : Ahead.token? (a.quote :: (a.body ++ rest)) = some (.string a.value, rest) := by
    simp [Ahead.token?, hsolid.2, hquote, hread]
  exact Ahead.read_solid hsolid.1 htoken

theorem toList_exported (a : StringLiteral) : a.exported.toList = head (a.chars ++ [';']) := by
  have hchars : (String.ofList a.chars).toList = a.chars := String.toList_ofList
  rw [exported, String.toList_append, String.toList_append, hchars, List.append_assoc]
  exact append_head _

/-- The module of a literal has the text of the literal as its value. -/
theorem evaluate_exported (a : StringLiteral) : evaluate a.exported = .ok (.string a.value) := by
  have hparse : parseModule (head (a.chars ++ [';'])) = .ok [.exportDefault (.string a.value)] := by
    refine parseModule_head rfl fun n hn => ?_
    obtain ⟨n, rfl⟩ : ∃ m, n = m + 1 := ⟨n - 1, by omega⟩
    exact readsAs_string (a.read _) closes_semicolon (by omega)
  rw [evaluate, evaluateChars, toList_exported, hparse]
  rfl

end StringLiteral

/-! ## Objects -/

/-- A property with a literal as its key, bare or in brackets. By itself it is accepted: the value has no key
twice, and the key does not set the prototype. -/
structure LiteralProperty where
  key : StringLiteral
  computed : Bool
  value : Value
  distinct : value.KeysDistinct
  named : computed = false → key.value ≠ protoKey

namespace LiteralProperty

def keyChars (p : LiteralProperty) (rest : List Char) : List Char :=
  if p.computed then '[' :: (p.key.chars ++ ']' :: rest) else p.key.chars ++ rest

def chars (p : LiteralProperty) (rest : List Char) : List Char :=
  p.keyChars (':' :: ' ' :: literal p.value rest)

def member (p : LiteralProperty) : Member :=
  .property (.string p.key.value) p.computed (literalExpression p.value)

end LiteralProperty

/-- The properties after the first, the closing brace and `rest`. -/
def moreProperties : List LiteralProperty → List Char → List Char
  | [], rest => ' ' :: '\x7d' :: rest
  | p :: ps, rest => ',' :: ' ' :: p.chars (moreProperties ps rest)

def objectChars : List LiteralProperty → List Char → List Char
  | [], rest => '\x7b' :: '\x7d' :: rest
  | p :: ps, rest => '\x7b' :: ' ' :: p.chars (moreProperties ps rest)

/-- The module whose default export is an object of these properties. -/
def objectModule (ps : List LiteralProperty) : String :=
  String.ofList ("export default ".toList ++ objectChars ps [';'])

section Reading

theorem LiteralProperty.readsKey {n : Nat} (hn : 3 ≤ n) (p : LiteralProperty) (cs : List Char) :
    ReadsKey n (p.keyChars (':' :: cs)) (.string p.key.value, p.computed) (atMark ':' cs) := by
  have hcolon : Ahead.read (':' :: cs) = some (atMark ':' cs) := read_atMark rfl cs
  unfold keyChars
  cases p.computed with
  | false => exact readsKey_string (p.key.read _) hcolon
  | true => exact readsKey_computed hn (p.key.read _) hcolon

theorem LiteralProperty.length_le_chars (p : LiteralProperty) (rest : List Char) :
    (literal p.value rest).length + 2 ≤ (p.chars rest).length ∧ rest.length ≤ (literal p.value rest).length := by
  refine ⟨?_, length_le_literal _ _⟩
  unfold chars keyChars
  cases p.computed with
  | false => simp
  | true =>
    simp
    omega

/-- A property is read in one step, up to what follows it. -/
theorem LiteralProperty.reads {n : Nat} (p : LiteralProperty) {rest : List Char} {b : Ahead}
    (hb : Closes rest b) (hn : (p.chars rest).length + 1 ≤ n) (fuel : Nat) (done : List Member) :
    ∃ a, Ahead.read (p.chars rest) = some a ∧ (Grammar.atDepth n).members .module (fuel + 1) done a =
      (Grammar.atDepth n).afterMember .module fuel (p.member :: done) b := by
  have hlength := p.length_le_chars rest
  have hv := readsAs_literal p.value (n := n) (by omega) hb
  exact Grammar.members_entry (p.readsKey (by omega) _) hv fuel done

theorem afterMember_moreProperties {n : Nat} (ps : List LiteralProperty) (fuel : Nat) {rest : List Char}
    {b : Ahead} (done : List Member) (hn : (moreProperties ps rest).length + 1 ≤ n)
    (hfuel : (moreProperties ps rest).length ≤ fuel) (hb : Ahead.read rest = some b) :
    ∃ a, Closes (moreProperties ps rest) a ∧ (Grammar.atDepth n).afterMember .module fuel done a =
      some (done.reverse ++ ps.map LiteralProperty.member, b) := by
  induction ps generalizing fuel done with
  | nil =>
    refine ⟨_, closes_space rfl (by decide) rest, ?_⟩
    rw [Grammar.afterMember_brace _ _ _ hb, List.map_nil, List.append_nil]
  | cons p ps ih =>
    obtain ⟨fuel, rfl⟩ := Nat.exists_eq_succ_of_ne_zero (Nat.ne_zero_of_lt hfuel)
    have hlength := p.length_le_chars (moreProperties ps rest)
    simp only [moreProperties, List.length_cons] at hn hfuel
    obtain ⟨d, hcloses, hmore⟩ := ih fuel (p.member :: done) (by omega) (by omega)
    obtain ⟨a, hread, hentry⟩ := p.reads (n := n) hcloses (by omega) fuel done
    refine ⟨_, closes_mark rfl (by decide) (by decide) _, ?_⟩
    rw [Grammar.afterMember_comma _ _ _ hread, hentry, hmore, List.reverse_cons, List.append_assoc]
    rfl

theorem membersComplete_map_member (ps : List LiteralProperty) :
    membersComplete (ps.map LiteralProperty.member) = true := by
  induction ps with
  | nil => rfl
  | cons p ps ih => simp [LiteralProperty.member, membersComplete, ih]

theorem readsAs_objectChars (ps : List LiteralProperty) {n : Nat} {rest : List Char} {b : Ahead}
    (hn : (objectChars ps rest).length + 3 ≤ n) (hb : Closes rest b) :
    ReadsAs n (objectChars ps rest) (.object (ps.map LiteralProperty.member)) b := by
  obtain ⟨n, rfl⟩ : ∃ m, n = m + 2 := ⟨n - 2, by omega⟩
  cases ps with
  | nil =>
    refine readsAs_object hb (read_atMark rfl rest) ?_ rfl (by omega)
    have hend : (atMark '\x7d' rest).isMark "\x7d" = true := rfl
    simp [Grammar.members, hend, hb.read]
  | cons p ps =>
    have hlength := p.length_le_chars (moreProperties ps rest)
    simp only [objectChars, List.length_cons] at hn
    obtain ⟨d, hcloses, hmore⟩ :=
      afterMember_moreProperties (n := n + 1) ps n [p.member] (by omega) (by omega) hb.read
    obtain ⟨a, hread, hentry⟩ := p.reads (n := n + 1) hcloses (by omega) n []
    have hcomplete := membersComplete_map_member (p :: ps)
    refine readsAs_object hb ((Ahead.read_space _).trans hread) ?_ hcomplete (by omega)
    rw [hentry, hmore]
    rfl

/-- The module of properties evaluates as their object does. -/
theorem evaluate_objectModule (ps : List LiteralProperty) :
    evaluate (objectModule ps) = (Expression.object (ps.map LiteralProperty.member)).evaluate := by
  have htext : (objectModule ps).toList = head (objectChars ps [';']) :=
    String.toList_ofList.trans (append_head _)
  have hcomplete : (Expression.object (ps.map LiteralProperty.member)).isComplete = true :=
    membersComplete_map_member ps
  have hparse := parseModule_head hcomplete fun n hn => readsAs_objectChars ps hn closes_semicolon
  rw [evaluate, evaluateChars, htext, hparse]
  simp only [evaluateStatements]
  cases (Expression.object (ps.map LiteralProperty.member)).evaluate <;> rfl

end Reading

/-! ## What is told apart -/

namespace StringLiteral

/-- The characters of the second literal are the first one with its marks. -/
def TakenFor (a b : StringLiteral) : Prop := TextPart.TakenFor a.kept b.kept

/-- A pair of surrogates is spelled so that each stands by itself. -/
def SplitsPair (a : StringLiteral) : Prop := TextPart.SplitsPair a.kept

variable {a b : StringLiteral}

theorem value_eq_iff : a.value = b.value ↔ a.kept = b.kept ∨ a.TakenFor b ∨ b.TakenFor a := by
  rw [value, value, String.ofList_inj]
  exact TextPart.text_eq_iff a.sound_kept b.sound_kept

theorem units_eq_of_kept (h : a.kept = b.kept) : a.units = b.units := by
  rw [← a.units_kept, ← b.units_kept, h]

theorem TakenFor.units_ne (h : a.TakenFor b) : a.units ≠ b.units := by
  intro hunits
  have hlength := TextPart.TakenFor.length_lt h a.sound_kept
  rw [a.units_kept, b.units_kept, hunits] at hlength
  exact Nat.lt_irrefl _ hlength

theorem kept_eq_ofUnits (a : StringLiteral) (h : ¬a.SplitsPair) : a.kept = TextPart.ofUnits a.units := by
  rw [← a.units_kept, TextPart.ofUnits_flatMap_units a.sound_kept h]

theorem units_of_value (a : StringLiteral) (h : a.kept.any TextPart.isSurrogate = false) :
    (a.value.toList.flatMap fun c => codeUnits c.toNat) = a.units := by
  rw [value, String.toList_ofList, TextPart.text, h, if_neg Bool.false_ne_true,
    ← TextPart.flatMap_units_of_plain h, a.units_kept]

end StringLiteral

/-! ## Keys -/

namespace LiteralProperty

theorem names_iff (p : LiteralProperty) {name : String} :
    (PropertyKey.string p.key.value).Names p.computed name ↔ name = p.key.value := by
  constructor
  · rintro ⟨_⟩
    rfl
  · rintro rfl
    exact .string p.named

theorem not_refused (p : LiteralProperty) {f : EvaluationError} :
    ¬(PropertyKey.string p.key.value).Refused p.computed f := by
  intro h
  have hname := name_ok_iff.mpr (p.names_iff.mpr rfl)
  cases hname.symm.trans (name_error_iff.mpr h)

theorem denotes_value (p : LiteralProperty) :
    Denotes (literalExpression p.value) (p.value.mapNumbers observed) :=
  (evaluate_ok_iff _).mp (evaluate_literalExpression p.value p.distinct)

theorem not_faults_value (p : LiteralProperty) {f : EvaluationError} : ¬Faults (literalExpression p.value) f := by
  intro h
  have hvalue := evaluate_literalExpression p.value p.distinct
  cases hvalue.symm.trans ((evaluate_error_iff _).mpr h)

end LiteralProperty

theorem membersDenote_properties (ps : List LiteralProperty) :
    MembersDenote (ps.map LiteralProperty.member)
      (ps.map fun p => (p.key.value, p.value.mapNumbers observed)) := by
  induction ps with
  | nil => exact .nil
  | cons p ps ih => exact .cons (p.names_iff.mpr rfl) p.denotes_value ih

theorem keys_of_membersDenote {ps : List LiteralProperty} {fields : List (String × Value)}
    (h : MembersDenote (ps.map LiteralProperty.member) fields) :
    fields.map Prod.fst = ps.map fun p => p.key.value := by
  induction ps generalizing fields with
  | nil =>
    cases h
    rfl
  | cons p ps ih =>
    cases h with
    | cons hname _ hmore => rw [List.map_cons, List.map_cons, ih hmore, p.names_iff.mp hname]

/-- By themselves the properties have no fault, so only a name that comes again is one. -/
theorem duplicate_of_membersFault {ps : List LiteralProperty} {names : List String} {f : EvaluationError}
    (h : MembersFault names (ps.map LiteralProperty.member) f) : ∃ name, f = .duplicateKey name := by
  induction ps generalizing names with
  | nil => cases h
  | cons p ps ih =>
    cases h with
    | key hrefused => exact absurd hrefused p.not_refused
    | value _ hfault => exact absurd hfault p.not_faults_value
    | duplicate _ _ _ => exact ⟨_, rfl⟩
    | later _ _ _ hmore => exact ih hmore

theorem evaluate_objectModule_ok_iff {ps : List LiteralProperty} :
    (∃ v, evaluate (objectModule ps) = .ok v) ↔ (ps.map fun p => p.key.value).Nodup := by
  simp only [evaluate_objectModule, evaluate_ok_iff]
  constructor
  · rintro ⟨v, hv⟩
    cases hv with
    | object hfields hnodup => rwa [keys_of_membersDenote hfields] at hnodup
  · intro h
    refine ⟨_, .object (membersDenote_properties ps) ?_⟩
    rwa [keys_of_membersDenote (membersDenote_properties ps)]

/-- Two keys are taken for one if and only if the texts of their literals are the same. -/
theorem evaluate_objectModule_duplicate_iff {ps : List LiteralProperty} :
    (∃ name, evaluate (objectModule ps) = .error (.duplicateKey name)) ↔
      ¬ps.Pairwise fun p q => p.key.value ≠ q.key.value := by
  have hpairwise : (ps.Pairwise fun p q => p.key.value ≠ q.key.value) ↔
      ∃ v, evaluate (objectModule ps) = .ok v := by
    rw [evaluate_objectModule_ok_iff, List.Nodup, List.pairwise_map]
  rw [hpairwise]
  constructor
  · rintro ⟨name, hname⟩ ⟨v, hv⟩
    cases hname.symm.trans hv
  · intro h
    cases hresult : evaluate (objectModule ps) with
    | ok v => exact absurd ⟨v, hresult⟩ h
    | error f =>
      rw [evaluate_objectModule, evaluate_error_iff] at hresult
      cases hresult with
      | object hfault =>
        obtain ⟨name, rfl⟩ := duplicate_of_membersFault hfault
        exact ⟨name, rfl⟩

/-! ## The check -/

/-- Whether a module that exports a literal passes for a file that holds a string. -/
theorem passes_iff {chain : LoaderChain Id} {files : FileAccess Id} {options : DecodeOptions} {path : String}
    {claimed : ClaimedModule} (hload : chain.load files path = Except.ok (some claimed)) {a : StringLiteral}
    (hcode : claimed.result.code = a.exported) {source x : String} (hsource : files.readText path = Except.ok source)
    (hx : decode options source = .ok (.string x)) :
    (chain.checkFile files options path).outcome = .passed ↔ a.value = x := by
  have hvalue : evaluate claimed.result.code = .ok (.string a.value) := hcode ▸ a.evaluate_exported
  have hsame : (Value.string a.value).same (.string x) = decide (a.value = x) := rfl
  rw [LoaderChain.checkFile, hload]
  dsimp only [bind, pure]
  rw [hvalue, hsource]
  dsimp only
  rw [compareWithFile, hx]
  dsimp only
  rw [hsame]
  by_cases h : a.value = x <;> simp [h]

/-- Strings are told apart by the code units of their literals, except where one has as characters what are
marks in the other, and except for pairs that are split: two literals have one value if and only if they have the
same code units in the same parts, or one is taken for the other, and then their code units differ. Code units
tell the parts of a literal that splits no pair, and without surrogates the value has these code units. Keys of
an object and the check of a file see the values and nothing else. -/
theorem string_values_exact (a b : StringLiteral) :
    (evaluate a.exported = .ok (.string a.value) ∧ evaluate b.exported = .ok (.string b.value)) ∧
    (a.value = b.value ↔ (a.units = b.units ∧ a.kept = b.kept) ∨ a.TakenFor b ∨ b.TakenFor a) ∧
    (a.TakenFor b → a.units ≠ b.units) ∧
    (¬a.SplitsPair → a.kept = TextPart.ofUnits a.units) ∧
    (a.kept.any TextPart.isSurrogate = false → (a.value.toList.flatMap fun c => codeUnits c.toNat) = a.units) ∧
    (∀ ps : List LiteralProperty, (∃ name, evaluate (objectModule ps) = .error (.duplicateKey name)) ↔
      ¬ps.Pairwise fun p q => p.key.value ≠ q.key.value) ∧
    ∀ (chain : LoaderChain Id) (files : FileAccess Id) (options : DecodeOptions) (path source x : String)
      (claimed : ClaimedModule), chain.load files path = Except.ok (some claimed) →
      claimed.result.code = a.exported → files.readText path = Except.ok source →
      decode options source = .ok (.string x) →
      ((chain.checkFile files options path).outcome = .passed ↔ a.value = x) := by
  refine ⟨⟨a.evaluate_exported, b.evaluate_exported⟩, ?_, fun h => h.units_ne, a.kept_eq_ofUnits,
    a.units_of_value, fun ps => evaluate_objectModule_duplicate_iff, ?_⟩
  · rw [StringLiteral.value_eq_iff]
    constructor
    · rintro (h | h)
      · exact .inl ⟨StringLiteral.units_eq_of_kept h, h⟩
      · exact .inr h
    · rintro (⟨_, h⟩ | h)
      · exact .inl h
      · exact .inr h
  · intro chain files options path source x claimed hload hcode hsource hx
    exact passes_iff hload hcode hsource hx

/-- A surrogate by itself. -/
def loneSurrogate : StringLiteral where
  quote := '\x22'
  body := ['\\', 'u', 'd', '8', '0', '0', '\x22']
  units := [0xD800]
  isQuote := .inl rfl
  spells := .escape (e := ['u', 'd', '8', '0', '0'])
    (.unit _ rfl ⟨[13, 8, 0, 0], .cons rfl (.cons rfl (.cons rfl (.cons rfl .nil))), rfl⟩) .close

/-- The characters of its mark. -/
def surrogateMark : StringLiteral where
  quote := '\x22'
  body := ['\ufffd', 'd', '8', '0', '0', '\x22']
  units := [0xFFFD, 0x64, 0x38, 0x30, 0x30]
  isQuote := .inl rfl
  spells := .char (c := '\ufffd') (by decide) (by decide) (by decide) (by decide)
    (.char (c := 'd') (by decide) (by decide) (by decide) (by decide)
      (.char (c := '8') (by decide) (by decide) (by decide) (by decide)
        (.char (c := '0') (by decide) (by decide) (by decide) (by decide)
          (.char (c := '0') (by decide) (by decide) (by decide) (by decide) .close))))

/-- A loader that has one answer to everything. -/
def fixedLoader (code : String) : Loader Id := ⟨"fixed", fun _ _ => Except.ok (some { code })⟩

/-- A file system in which every path leads to a file of one text. -/
def filesOf (text : String) : FileAccess Id where
  kind _ := Except.ok .file
  entry _ := Except.ok (some .file)
  read _ := Except.ok text.toUTF8
  list _ := Except.ok ⟨[], none⟩
  place path := Except.ok path

/-- The module that exports the surrogate passes the check of a file that holds the characters of its mark. -/
theorem surrogate_checked :
    ((LoaderChain.mk [fixedLoader loneSurrogate.exported]).checkFile (filesOf "\x22\\uFFFDd800\x22") {} "a.yaml").outcome =
      .passed := by
  obtain ⟨_, _, _, _, _, _, hcheck⟩ := string_values_exact loneSurrogate surrogateMark
  have hsource : (filesOf "\x22\\uFFFDd800\x22").readText "a.yaml" = Except.ok "\x22\\uFFFDd800\x22" := rfl
  have hfile : decode {} "\x22\\uFFFDd800\x22" = .ok (.string "\ufffdd800") := rfl
  have hload : (LoaderChain.mk [fixedLoader loneSurrogate.exported]).load (filesOf "\x22\\uFFFDd800\x22") "a.yaml" =
      Except.ok (some ⟨"fixed", { code := loneSurrogate.exported }⟩) := rfl
  exact (hcheck _ _ _ _ _ _ _ hload rfl hsource hfile).mpr rfl

/-- A module that exports a surrogate by itself has the value of the text that is its mark, and passes for a file
that holds the text. -/
theorem surrogate_passes_for_mark :
    loneSurrogate.exported = "export default \x22\\ud800\x22;" ∧
    surrogateMark.exported = "export default \x22\ufffdd800\x22;" ∧
    evaluate loneSurrogate.exported = .ok (.string "\ufffdd800") ∧
    evaluate surrogateMark.exported = .ok (.string "\ufffdd800") ∧
    loneSurrogate.units ≠ surrogateMark.units ∧
    compareWithFile {} (.string "\ufffdd800") (.ok "\x22\\uFFFDd800\x22") = .ok () ∧
    ¬∀ (a b : StringLiteral) (v w : Value), evaluate a.exported = .ok v → evaluate b.exported = .ok w →
      (v.same w = true ↔ a.units = b.units) := by
  have hlone : loneSurrogate.value = "\ufffdd800" := rfl
  have hmark : surrogateMark.value = "\ufffdd800" := rfl
  have hne : loneSurrogate.units ≠ surrogateMark.units := by decide
  have hloneValue := hlone ▸ loneSurrogate.evaluate_exported
  have hmarkValue := hmark ▸ surrogateMark.evaluate_exported
  have hfile : decode {} "\x22\\uFFFDd800\x22" = .ok (.string "\ufffdd800") := rfl
  refine ⟨rfl, rfl, hloneValue, hmarkValue, hne, ?_, fun h => ?_⟩
  · simp [compareWithFile, hfile, Value.same]
  · exact hne ((h _ _ _ _ hloneValue hmarkValue).mp rfl)

end ConfigModules.Script
