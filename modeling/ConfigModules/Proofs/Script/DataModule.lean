import ConfigModules.Proofs.Mapping
import ConfigModules.Script.Evaluation
import Mathlib.Tactic.SplitIfs

/-! Modules of data. A grammar of data expressions says which modules have a value and which, and another
of faults, in reading order, what is reported of all others. Evaluation decides both. -/
namespace ConfigModules.Script

/-! ## The grammar of data -/

/-- The name that a key gives to a property. -/
inductive PropertyKey.Names : PropertyKey → (computed : Bool) → String → Prop
  | identifier {w : String} : w ≠ protoKey → Names (.identifier w) false w
  | string {s : String} {computed : Bool} : (computed = false → s ≠ protoKey) → Names (.string s) computed s
  | number (x : Double) (computed : Bool) : Names (.number x) computed (Number.real x).propertyKey

mutual

inductive Denotes : Expression → Value → Prop
  | null : Denotes .null .null
  | boolean (b : Bool) : Denotes (.boolean b) (.boolean b)
  | number (x : Double) : Denotes (.number x) (.number (.real x))
  | string (s : String) : Denotes (.string s) (.string s)
  | infinity : Denotes (.identifier "Infinity") (.number (.real (.infinite false)))
  | nan : Denotes (.identifier "NaN") (.number (.real .nan))
  | negation {e : Expression} {n : Number} :
      Denotes e (.number n) → Denotes (.negation e) (.number (.real (-n.asDouble)))
  | parenthesized {e : Expression} {v : Value} : Denotes e v → Denotes (.parenthesized e) v
  | array {elements : List Element} {values : List Value} :
      ElementsDenote elements values → Denotes (.array elements) (.sequence values)
  | object {members : List Member} {fields : List (String × Value)} :
      MembersDenote members fields → (fields.map Prod.fst).Nodup →
      Denotes (.object members) (.mapping fields)

inductive ElementsDenote : List Element → List Value → Prop
  | nil : ElementsDenote [] []
  | cons {e : Expression} {v : Value} {es : List Element} {vs : List Value} :
      Denotes e v → ElementsDenote es vs → ElementsDenote (.item e :: es) (v :: vs)

inductive MembersDenote : List Member → List (String × Value) → Prop
  | nil : MembersDenote [] []
  | cons {key : PropertyKey} {computed : Bool} {name : String} {e : Expression} {v : Value}
      {ms : List Member} {fs : List (String × Value)} :
      key.Names computed name → Denotes e v → MembersDenote ms fs →
      MembersDenote (.property key computed e :: ms) ((name, v) :: fs)

end

/-! ## The grammar of faults -/

inductive PropertyKey.Refused : PropertyKey → (computed : Bool) → EvaluationError → Prop
  | protoIdentifier : Refused (.identifier protoKey) false .protoKey
  | protoString : Refused (.string protoKey) false .protoKey
  | variable (w : String) : Refused (.identifier w) true (.unsupported .propertyKey)
  | other (computed : Bool) : Refused .other computed (.unsupported .propertyKey)

mutual

/-- The first fault of an expression in reading order. -/
inductive Faults : Expression → EvaluationError → Prop
  | identifier {w : String} : w ≠ "Infinity" → w ≠ "NaN" →
      Faults (.identifier w) (.unsupported (.identifier w))
  | negated {e : Expression} {f : EvaluationError} : Faults e f → Faults (.negation e) f
  | negation {e : Expression} {v : Value} : Denotes e v → (∀ n, v ≠ .number n) →
      Faults (.negation e) (.unsupported (.negation v.kind))
  | parenthesized {e : Expression} {f : EvaluationError} : Faults e f → Faults (.parenthesized e) f
  | array {elements : List Element} {f : EvaluationError} :
      ElementsFault elements f → Faults (.array elements) f
  | object {members : List Member} {f : EvaluationError} :
      MembersFault [] members f → Faults (.object members) f
  | access : Faults .access (.unsupported .expression)
  | assignment (target : Expression) : Faults (.assignment target) (.unsupported .expression)
  | arrowHead : Faults .arrowHead (.unsupported .expression)
  | other : Faults .other (.unsupported .expression)

inductive ElementsFault : List Element → EvaluationError → Prop
  | item {e : Expression} {es : List Element} {f : EvaluationError} :
      Faults e f → ElementsFault (.item e :: es) f
  | later {e : Expression} {v : Value} {es : List Element} {f : EvaluationError} :
      Denotes e v → ElementsFault es f → ElementsFault (.item e :: es) f
  | hole (es : List Element) : ElementsFault (.hole :: es) (.unsupported .holeOrSpread)
  | spread (e : Expression) (es : List Element) :
      ElementsFault (.spread e :: es) (.unsupported .holeOrSpread)

/-- The first fault of members after others with the given names. Within a member the key comes first,
then the value, then a name that is there already. -/
inductive MembersFault : (names : List String) → List Member → EvaluationError → Prop
  | key {names : List String} {key : PropertyKey} {computed : Bool} {e : Expression} {ms : List Member}
      {f : EvaluationError} :
      key.Refused computed f → MembersFault names (.property key computed e :: ms) f
  | value {names : List String} {key : PropertyKey} {computed : Bool} {name : String} {e : Expression}
      {ms : List Member} {f : EvaluationError} :
      key.Names computed name → Faults e f → MembersFault names (.property key computed e :: ms) f
  | duplicate {names : List String} {key : PropertyKey} {computed : Bool} {name : String} {e : Expression}
      {v : Value} {ms : List Member} :
      key.Names computed name → Denotes e v → name ∈ names →
      MembersFault names (.property key computed e :: ms) (.duplicateKey name)
  | later {names : List String} {key : PropertyKey} {computed : Bool} {name : String} {e : Expression}
      {v : Value} {ms : List Member} {f : EvaluationError} :
      key.Names computed name → Denotes e v → name ∉ names → MembersFault (names ++ [name]) ms f →
      MembersFault names (.property key computed e :: ms) f
  | nameWithDefault (names : List String) (w : String) (ms : List Member) :
      MembersFault names (.nameWithDefault w :: ms) (.unsupported .expression)
  | method (names : List String) (ms : List Member) :
      MembersFault names (.method :: ms) (.unsupported .method)
  | spread (names : List String) (e : Expression) (ms : List Member) :
      MembersFault names (.spread e :: ms) (.unsupported .spreadProperty)

end

/-! ## Keys -/

theorem name_ok_iff {key : PropertyKey} {computed : Bool} {name : String} :
    key.name computed = .ok name ↔ key.Names computed name := by
  constructor
  · intro h
    cases key with
    | identifier w =>
      simp only [PropertyKey.name] at h
      split_ifs at h with hcomputed hproto
      cases h
      obtain rfl : computed = false := Bool.eq_false_iff.mpr hcomputed
      exact .identifier hproto
    | string s =>
      simp only [PropertyKey.name] at h
      split_ifs at h with hproto
      cases h
      exact .string fun hcomputed hs => hproto (by simp [hcomputed, hs])
    | number x =>
      cases h
      exact .number x computed
    | other => cases h
  · intro h
    cases h with
    | identifier hproto => simp [PropertyKey.name, hproto]
    | string hproto =>
      cases computed with
      | false => simp [PropertyKey.name, hproto rfl]
      | true => simp [PropertyKey.name]
    | number x => rfl

theorem name_error_iff {key : PropertyKey} {computed : Bool} {f : EvaluationError} :
    key.name computed = .error f ↔ key.Refused computed f := by
  constructor
  · intro h
    cases key with
    | identifier w =>
      simp only [PropertyKey.name] at h
      split_ifs at h with hcomputed hproto
      · cases h
        exact hcomputed ▸ .variable w
      · cases h
        obtain rfl : computed = false := Bool.eq_false_iff.mpr hcomputed
        exact hproto ▸ .protoIdentifier
    | string s =>
      simp only [PropertyKey.name, Bool.and_eq_true, Bool.not_eq_true', decide_eq_true_eq] at h
      split_ifs at h with hproto
      cases h
      exact hproto.1 ▸ hproto.2 ▸ .protoString
    | number x => cases h
    | other =>
      cases h
      exact .other computed
  · intro h
    cases h <;> simp [PropertyKey.name]

theorem negated_ok_iff {v w : Value} :
    negated v = .ok w ↔ ∃ n, v = .number n ∧ w = .number (.real (-n.asDouble)) := by
  cases v <;> simp [negated, eq_comm]

theorem negated_error_iff {v : Value} {f : EvaluationError} :
    negated v = .error f ↔ (∀ n, v ≠ .number n) ∧ f = .unsupported (.negation v.kind) := by
  cases v <;> simp [negated, eq_comm]

/-! ## Values -/

theorem denotes_identifier_iff {w : String} {v : Value} :
    Denotes (.identifier w) v ↔ (w = "Infinity" ∧ v = .number (.real (.infinite false))) ∨
      (w = "NaN" ∧ v = .number (.real .nan)) := by
  constructor
  · intro h
    cases h with
    | infinity => exact .inl ⟨rfl, rfl⟩
    | nan => exact .inr ⟨rfl, rfl⟩
  · rintro (⟨rfl, rfl⟩ | ⟨rfl, rfl⟩)
    · exact .infinity
    · exact .nan

theorem denotes_negation_iff {e : Expression} {v : Value} :
    Denotes (.negation e) v ↔ ∃ u, Denotes e u ∧ negated u = .ok v := by
  simp only [negated_ok_iff]
  constructor
  · intro h
    cases h with
    | negation h => exact ⟨_, h, _, rfl, rfl⟩
  · rintro ⟨_, h, n, rfl, rfl⟩
    exact .negation h

theorem elementsDenote_item_iff {e : Expression} {es : List Element} {values : List Value} :
    ElementsDenote (.item e :: es) values ↔
      ∃ v vs, values = v :: vs ∧ Denotes e v ∧ ElementsDenote es vs := by
  constructor
  · intro h
    cases h with
    | cons hv hvs => exact ⟨_, _, rfl, hv, hvs⟩
  · rintro ⟨v, vs, rfl, hv, hvs⟩
    exact .cons hv hvs

theorem membersDenote_property_iff {key : PropertyKey} {computed : Bool} {e : Expression}
    {ms : List Member} {fields : List (String × Value)} :
    MembersDenote (.property key computed e :: ms) fields ↔
      ∃ name v fs, fields = (name, v) :: fs ∧ key.Names computed name ∧ Denotes e v ∧
        MembersDenote ms fs := by
  constructor
  · intro h
    cases h with
    | cons hname hv hfs => exact ⟨_, _, _, rfl, hname, hv, hfs⟩
  · rintro ⟨name, v, fs, rfl, hname, hv, hfs⟩
    exact .cons hname hv hfs

mutual

theorem evaluate_ok_iff : (e : Expression) → {v : Value} → (e.evaluate = .ok v ↔ Denotes e v)
  | .null, v => by
    constructor
    · rintro ⟨⟩
      exact .null
    · rintro ⟨⟩
      rfl
  | .boolean b, v => by
    constructor
    · rintro ⟨⟩
      exact .boolean b
    · rintro ⟨⟩
      rfl
  | .number x, v => by
    constructor
    · rintro ⟨⟩
      exact .number x
    · rintro ⟨⟩
      rfl
  | .string s, v => by
    constructor
    · rintro ⟨⟩
      exact .string s
    · rintro ⟨⟩
      rfl
  | .identifier w, v => by
    rw [Expression.evaluate, denotes_identifier_iff]
    split_ifs with hinfinity hnan
    · simp [hinfinity, eq_comm]
    · simp [hnan, eq_comm]
    · simp [hinfinity, hnan]
  | .negation e, v => by
    simp only [denotes_negation_iff, ← evaluate_ok_iff e, Expression.evaluate]
    cases e.evaluate with
    | error f => simp
    | ok u => simp
  | .parenthesized e, v => by
    rw [Expression.evaluate, evaluate_ok_iff e]
    constructor
    · intro h
      exact .parenthesized h
    · intro h
      cases h with
      | parenthesized h => exact h
  | .array elements, v => by
    rw [Expression.evaluate]
    constructor
    · intro h
      cases hvalues : elementValues elements [] with
      | error f => simp [hvalues] at h
      | ok values =>
        obtain rfl : .sequence values = v := by simpa [hvalues] using h
        obtain ⟨more, rfl, hmore⟩ := (elementValues_ok_iff elements).mp hvalues
        exact .array hmore
    · intro h
      cases h with
      | array hvalues =>
        rw [(elementValues_ok_iff elements).mpr ⟨_, rfl, hvalues⟩]
        rfl
  | .object members, v => by
    rw [Expression.evaluate]
    constructor
    · intro h
      cases hm : memberValues members ∅ with
      | error f => simp [hm] at h
      | ok m =>
        obtain rfl : Value.ofMapping m = v := by simpa [hm] using h
        obtain ⟨fields, hall, hdistinct, hfields⟩ := (memberValues_ok_iff members).mp ⟨m, hm, rfl⟩
        obtain rfl : m.toList = fields := hall
        exact .object hfields hdistinct
    · intro h
      cases h with
      | @object _ fields hfields hdistinct =>
        have hall : fields = (∅ : Mapping Value).toList ++ fields := rfl
        obtain ⟨m, hm, rfl⟩ := (memberValues_ok_iff members).mpr ⟨fields, hall, hdistinct, hfields⟩
        rw [hm]
        rfl
  | .access, v | .assignment _, v | .arrowHead, v | .other, v => by
    constructor <;> rintro ⟨⟩

theorem elementValues_ok_iff : (es : List Element) → {done values : List Value} →
    (elementValues es done = .ok values ↔ ∃ more, values = done.reverse ++ more ∧ ElementsDenote es more)
  | [], done, values => by
    rw [elementValues, Except.ok.injEq]
    constructor
    · rintro rfl
      exact ⟨[], (List.append_nil _).symm, .nil⟩
    · rintro ⟨more, rfl, hmore⟩
      cases hmore
      exact (List.append_nil _).symm
  | .item e :: es, done, values => by
    simp only [elementsDenote_item_iff, ← evaluate_ok_iff e, elementValues]
    cases e.evaluate with
    | error f => simp
    | ok v => simp [elementValues_ok_iff es]
  | .hole :: es, done, values | .spread _ :: es, done, values => by
    constructor
    · rintro ⟨⟩
    · rintro ⟨more, _, ⟨⟩⟩

/-- Members are added to a mapping under names of their own. -/
theorem memberValues_ok_iff : (ms : List Member) → {m : Mapping Value} → {all : List (String × Value)} →
    ((∃ m', memberValues ms m = .ok m' ∧ m'.toList = all) ↔
      ∃ fields, all = m.toList ++ fields ∧ (all.map Prod.fst).Nodup ∧ MembersDenote ms fields)
  | [], m, all => by
    constructor
    · rintro ⟨m', hm', rfl⟩
      obtain rfl : m = m' := Except.ok.inj hm'
      exact ⟨[], (List.append_nil _).symm, m.nodup_keys, .nil⟩
    · rintro ⟨fields, rfl, _, hfields⟩
      cases hfields
      exact ⟨m, rfl, (List.append_nil _).symm⟩
  | .property key computed e :: ms, m, all => by
    simp only [membersDenote_property_iff, ← name_ok_iff, ← evaluate_ok_iff e]
    rw [memberValues]
    constructor
    · rintro ⟨m', hm', hall⟩
      cases hname : key.name computed with
      | error f => simp [hname] at hm'
      | ok name =>
        cases hv : e.evaluate with
        | error f => simp [hname, hv] at hm'
        | ok v =>
          cases hnew : m.isNew name with
          | false => simp [hname, hv, hnew] at hm'
          | true =>
            have hmore : memberValues ms (m.insertNew name v) = .ok m' := by simpa [hname, hv, hnew] using hm'
            obtain ⟨fs, hfs, hdistinct, hmembers⟩ := (memberValues_ok_iff ms).mp ⟨m', hmore, hall⟩
            rw [Mapping.toList_insertNew hnew, List.append_assoc] at hfs
            exact ⟨(name, v) :: fs, hfs, hdistinct, name, v, fs, rfl, rfl, rfl, hmembers⟩
    · rintro ⟨fields, hall, hdistinct, name, v, fs, rfl, hname, hv, hmembers⟩
      have hnew : m.isNew name = true := Mapping.isNew_of_nodup (hall ▸ hdistinct)
      have hfs : all = (m.insertNew name v).toList ++ fs := by
        rw [Mapping.toList_insertNew hnew, List.append_assoc]
        exact hall
      obtain ⟨m', hm', hall'⟩ := (memberValues_ok_iff ms).mpr ⟨fs, hfs, hdistinct, hmembers⟩
      refine ⟨m', ?_, hall'⟩
      simp [hname, hv, hnew, hm']
  | .nameWithDefault _ :: ms, m, all | .method :: ms, m, all | .spread _ :: ms, m, all => by
    constructor
    · rintro ⟨m', ⟨⟩, _⟩
    · rintro ⟨fields, _, _, ⟨⟩⟩

end

/-! ## Faults -/

theorem faults_identifier_iff {w : String} {f : EvaluationError} :
    Faults (.identifier w) f ↔ w ≠ "Infinity" ∧ w ≠ "NaN" ∧ f = .unsupported (.identifier w) := by
  constructor
  · intro h
    cases h with
    | identifier hinfinity hnan => exact ⟨hinfinity, hnan, rfl⟩
  · rintro ⟨hinfinity, hnan, rfl⟩
    exact .identifier hinfinity hnan

theorem faults_negation_iff {e : Expression} {f : EvaluationError} :
    Faults (.negation e) f ↔ Faults e f ∨ ∃ v, Denotes e v ∧ negated v = .error f := by
  simp only [negated_error_iff]
  constructor
  · intro h
    cases h with
    | negated h => exact .inl h
    | negation hv hnumber => exact .inr ⟨_, hv, hnumber, rfl⟩
  · rintro (h | ⟨v, hv, hnumber, rfl⟩)
    · exact .negated h
    · exact .negation hv hnumber

theorem elementsFault_item_iff {e : Expression} {es : List Element} {f : EvaluationError} :
    ElementsFault (.item e :: es) f ↔ Faults e f ∨ ∃ v, Denotes e v ∧ ElementsFault es f := by
  constructor
  · intro h
    cases h with
    | item h => exact .inl h
    | later hv h => exact .inr ⟨_, hv, h⟩
  · rintro (h | ⟨v, hv, h⟩)
    · exact .item h
    · exact .later hv h

theorem membersFault_property_iff {names : List String} {key : PropertyKey} {computed : Bool}
    {e : Expression} {ms : List Member} {f : EvaluationError} :
    MembersFault names (.property key computed e :: ms) f ↔
      key.Refused computed f ∨ ∃ name, key.Names computed name ∧ (Faults e f ∨ ∃ v, Denotes e v ∧
        ((name ∈ names ∧ f = .duplicateKey name) ∨
          (name ∉ names ∧ MembersFault (names ++ [name]) ms f))) := by
  constructor
  · intro h
    cases h with
    | key h => exact .inl h
    | value hname h => exact .inr ⟨_, hname, .inl h⟩
    | duplicate hname hv hold => exact .inr ⟨_, hname, .inr ⟨_, hv, .inl ⟨hold, rfl⟩⟩⟩
    | later hname hv hnew h => exact .inr ⟨_, hname, .inr ⟨_, hv, .inr ⟨hnew, h⟩⟩⟩
  · rintro (h | ⟨name, hname, h | ⟨v, hv, ⟨hold, rfl⟩ | ⟨hnew, h⟩⟩⟩)
    · exact .key h
    · exact .value hname h
    · exact .duplicate hname hv hold
    · exact .later hname hv hnew h

mutual

theorem evaluate_error_iff : (e : Expression) → {f : EvaluationError} → (e.evaluate = .error f ↔ Faults e f)
  | .null, f | .boolean _, f | .number _, f | .string _, f => by
    constructor <;> rintro ⟨⟩
  | .identifier w, f => by
    rw [Expression.evaluate, faults_identifier_iff]
    split_ifs with hinfinity hnan
    · simp [hinfinity]
    · simp [hnan]
    · simp [hinfinity, hnan, eq_comm]
  | .negation e, f => by
    simp only [faults_negation_iff, ← evaluate_ok_iff, ← evaluate_error_iff e, Expression.evaluate]
    cases e.evaluate with
    | error f => simp
    | ok v => simp
  | .parenthesized e, f => by
    rw [Expression.evaluate, evaluate_error_iff e]
    constructor
    · intro h
      exact .parenthesized h
    · intro h
      cases h with
      | parenthesized h => exact h
  | .array elements, f => by
    have hfault : Faults (.array elements) f ↔ ElementsFault elements f := by
      constructor
      · intro h
        cases h with
        | array h => exact h
      · intro h
        exact .array h
    have hvalues : elementValues elements [] = .error f ↔ ElementsFault elements f :=
      elementValues_error_iff elements
    rw [hfault, ← hvalues, Expression.evaluate]
    cases elementValues elements [] <;> simp
  | .object members, f => by
    have hfault : Faults (.object members) f ↔ MembersFault (∅ : Mapping Value).keys members f := by
      constructor
      · intro h
        cases h with
        | object h => exact h
      · intro h
        exact .object h
    rw [hfault, ← memberValues_error_iff members, Expression.evaluate]
    cases memberValues members ∅ <;> simp
  | .access, f => by
    constructor
    · rintro ⟨⟩
      exact .access
    · rintro ⟨⟩
      rfl
  | .assignment target, f => by
    constructor
    · rintro ⟨⟩
      exact .assignment target
    · rintro ⟨⟩
      rfl
  | .arrowHead, f => by
    constructor
    · rintro ⟨⟩
      exact .arrowHead
    · rintro ⟨⟩
      rfl
  | .other, f => by
    constructor
    · rintro ⟨⟩
      exact .other
    · rintro ⟨⟩
      rfl

theorem elementValues_error_iff : (es : List Element) → {done : List Value} → {f : EvaluationError} →
    (elementValues es done = .error f ↔ ElementsFault es f)
  | [], done, f => by
    constructor <;> rintro ⟨⟩
  | .item e :: es, done, f => by
    simp only [elementsFault_item_iff, ← evaluate_ok_iff, ← evaluate_error_iff e, elementValues]
    cases e.evaluate with
    | error f => simp
    | ok v => simp [elementValues_error_iff es]
  | .hole :: es, done, f => by
    constructor
    · rintro ⟨⟩
      exact .hole es
    · rintro ⟨⟩
      rfl
  | .spread e :: es, done, f => by
    constructor
    · rintro ⟨⟩
      exact .spread e es
    · rintro ⟨⟩
      rfl

theorem memberValues_error_iff : (ms : List Member) → {m : Mapping Value} → {f : EvaluationError} →
    (memberValues ms m = .error f ↔ MembersFault m.keys ms f)
  | [], m, f => by
    constructor <;> rintro ⟨⟩
  | .property key computed e :: ms, m, f => by
    simp only [membersFault_property_iff, ← name_ok_iff, ← name_error_iff, ← evaluate_ok_iff,
      ← evaluate_error_iff e, ← Mapping.isNew_iff, memberValues]
    cases key.name computed with
    | error f => simp
    | ok name =>
      cases e.evaluate with
      | error f => simp
      | ok v =>
        cases hnew : m.isNew name with
        | false =>
          have hold : name ∈ m.keys := by
            by_contra h
            simp [Mapping.isNew_iff.mpr h] at hnew
          simpa [hnew, hold] using eq_comm
        | true =>
          have hkeys : (m.insertNew name v).keys = m.keys ++ [name] := by
            rw [Mapping.keys, Mapping.toList_insertNew hnew, List.map_append]
            rfl
          simp [hnew, ← hkeys, memberValues_error_iff ms, Mapping.isNew_iff.mp hnew]
  | .nameWithDefault w :: ms, m, f => by
    constructor
    · rintro ⟨⟩
      exact .nameWithDefault _ w ms
    · rintro ⟨⟩
      rfl
  | .method :: ms, m, f => by
    constructor
    · rintro ⟨⟩
      exact .method _ ms
    · rintro ⟨⟩
      rfl
  | .spread e :: ms, m, f => by
    constructor
    · rintro ⟨⟩
      exact .spread _ e ms
    · rintro ⟨⟩
      rfl

end

/-! ## Modules -/

/-- A statement that is empty or exports data. -/
def Statement.IsData (s : Statement) : Prop := s = .empty ∨ ∃ e v, s = .exportDefault e ∧ Denotes e v

/-- The statements of a module are data, and the last export has the value. -/
structure IsDataModule (statements : List Statement) (v : Value) : Prop where
  data : ∀ s ∈ statements, s.IsData
  last : ∃ before e after, statements = before ++ .exportDefault e :: after ∧
    (∀ s ∈ after, s = .empty) ∧ Denotes e v

inductive Statement.Faults : Statement → EvaluationError → Prop
  | exportDefault {e : Expression} {f : EvaluationError} : Script.Faults e f → Faults (.exportDefault e) f
  | declaration : Faults .exportDefaultDeclaration (.unsupported .declaration)
  | other (names : List String) : Faults (.other names) (.unsupported .statement)

/-- A statement has a fault, and those before it are data. -/
def FaultsFirst (statements : List Statement) (f : EvaluationError) : Prop :=
  ∃ before s after, statements = before ++ s :: after ∧ (∀ t ∈ before, t.IsData) ∧ s.Faults f

/-- What is reported of a module: its first fault, or that it exports nothing. -/
def ModuleFaults (statements : List Statement) (f : EvaluationError) : Prop :=
  FaultsFirst statements f ∨ ((∀ s ∈ statements, s = .empty) ∧ f = .noDefaultExport)

theorem isDataModule_cons_iff {s : Statement} {ss : List Statement} {v : Value} :
    IsDataModule (s :: ss) v ↔ s.IsData ∧
      ((∃ e, s = .exportDefault e ∧ Denotes e v ∧ ∀ t ∈ ss, t = .empty) ∨ IsDataModule ss v) := by
  constructor
  · rintro ⟨hdata, before, e, after, hsplit, hafter, hv⟩
    obtain ⟨hs, hss⟩ := List.forall_mem_cons.mp hdata
    refine ⟨hs, ?_⟩
    cases before with
    | nil =>
      obtain ⟨rfl, rfl⟩ := List.cons.inj hsplit
      exact .inl ⟨e, rfl, hv, hafter⟩
    | cons t before =>
      obtain ⟨rfl, rfl⟩ := List.cons.inj hsplit
      exact .inr ⟨hss, before, e, after, rfl, hafter, hv⟩
  · rintro ⟨hs, ⟨e, rfl, hv, hempty⟩ | ⟨hdata, before, e, after, rfl, hafter, hv⟩⟩
    · have hdata : ∀ t ∈ ss, t.IsData := fun t ht => .inl (hempty t ht)
      exact ⟨List.forall_mem_cons.mpr ⟨hs, hdata⟩, [], e, ss, rfl, hempty, hv⟩
    · exact ⟨List.forall_mem_cons.mpr ⟨hs, hdata⟩, s :: before, e, after, rfl, hafter, hv⟩

theorem faultsFirst_cons_iff {s : Statement} {ss : List Statement} {f : EvaluationError} :
    FaultsFirst (s :: ss) f ↔ s.Faults f ∨ (s.IsData ∧ FaultsFirst ss f) := by
  constructor
  · rintro ⟨before, t, after, hsplit, hbefore, ht⟩
    cases before with
    | nil =>
      obtain ⟨rfl, rfl⟩ := List.cons.inj hsplit
      exact .inl ht
    | cons u before =>
      obtain ⟨rfl, rfl⟩ := List.cons.inj hsplit
      obtain ⟨hs, hbefore⟩ := List.forall_mem_cons.mp hbefore
      exact .inr ⟨hs, before, t, after, rfl, hbefore, ht⟩
  · rintro (hs | ⟨hs, before, t, after, rfl, hbefore, ht⟩)
    · exact ⟨[], s, ss, rfl, List.forall_mem_nil _, hs⟩
    · exact ⟨s :: before, t, after, rfl, List.forall_mem_cons.mpr ⟨hs, hbefore⟩, ht⟩

theorem isData_exportDefault_iff {e : Expression} :
    (Statement.exportDefault e).IsData ↔ ∃ v, e.evaluate = .ok v := by
  simp [Statement.IsData, evaluate_ok_iff]

theorem faults_exportDefault_iff {e : Expression} {f : EvaluationError} :
    (Statement.exportDefault e).Faults f ↔ e.evaluate = .error f := by
  rw [evaluate_error_iff]
  constructor
  · intro h
    cases h with
    | exportDefault h => exact h
  · intro h
    exact .exportDefault h

/-- What was found before counts if nothing is exported after. -/
theorem evaluateStatements_ok_iff {statements : List Statement} {found : Option Value} {v : Value} :
    evaluateStatements statements found = .ok v ↔
      (found = some v ∧ ∀ s ∈ statements, s = .empty) ∨ IsDataModule statements v := by
  induction statements generalizing found with
  | nil =>
    have hnone : ¬IsDataModule [] v := by
      rintro ⟨_, before, e, after, hsplit, _⟩
      simp at hsplit
    cases found <;> simp [evaluateStatements, hnone]
  | cons s ss ih =>
    rw [isDataModule_cons_iff]
    cases s with
    | empty => simp [evaluateStatements, ih, Statement.IsData]
    | exportDefault e =>
      rw [isData_exportDefault_iff, evaluateStatements]
      cases he : e.evaluate with
      | error f => simp
      | ok w => simp [ih, ← evaluate_ok_iff, he]
    | exportDefaultDeclaration => simp [evaluateStatements, Statement.IsData]
    | other names => simp [evaluateStatements, Statement.IsData]

theorem evaluateStatements_error_iff {statements : List Statement} {found : Option Value}
    {f : EvaluationError} :
    evaluateStatements statements found = .error f ↔ FaultsFirst statements f ∨
      (found = none ∧ (∀ s ∈ statements, s = .empty) ∧ f = .noDefaultExport) := by
  induction statements generalizing found with
  | nil =>
    have hnone : ¬FaultsFirst [] f := by
      rintro ⟨before, s, after, hsplit, _⟩
      simp at hsplit
    cases found <;> simp [evaluateStatements, hnone, eq_comm]
  | cons s ss ih =>
    rw [faultsFirst_cons_iff]
    cases s with
    | empty =>
      have hclean : ¬Statement.empty.Faults f := by rintro ⟨⟩
      simp [evaluateStatements, ih, Statement.IsData, hclean]
    | exportDefault e =>
      rw [isData_exportDefault_iff, faults_exportDefault_iff, evaluateStatements]
      cases he : e.evaluate with
      | error f => simp
      | ok w => simp [ih]
    | exportDefaultDeclaration =>
      have hfault : Statement.exportDefaultDeclaration.Faults f ↔ .unsupported .declaration = f := by
        constructor
        · rintro ⟨⟩
          rfl
        · rintro rfl
          exact .declaration
      simp [evaluateStatements, Statement.IsData, hfault]
    | other names =>
      have hfault : (Statement.other names).Faults f ↔ .unsupported .statement = f := by
        constructor
        · rintro ⟨⟩
          rfl
        · rintro rfl
          exact .other names
      simp [evaluateStatements, Statement.IsData, hfault]

/-- Evaluation accepts the data modules and nothing else. Of a program that can be read it gives the value
that the grammar of data denotes, or else the first fault in reading order. -/
theorem data_modules_exact (code : String) :
    (∀ v, evaluate code = .ok v ↔
      ∃ statements, parseModule code.toList = .ok statements ∧ IsDataModule statements v) ∧
    ∀ f, evaluate code = .error f ↔
      (∃ fault, parseModule code.toList = .error fault ∧ f = .notAModule fault) ∨
        ∃ statements, parseModule code.toList = .ok statements ∧ ModuleFaults statements f := by
  rw [evaluate, evaluateChars]
  cases parseModule code.toList with
  | error fault => simp [eq_comm]
  | ok statements =>
    constructor
    · intro v
      simp [evaluateStatements_ok_iff]
    · intro f
      simp [evaluateStatements_error_iff, ModuleFaults]

end ConfigModules.Script
