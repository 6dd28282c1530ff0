import ConfigModules.Script.Evaluation
import Mathlib.Tactic.SplitIfs

/-! The expression that the text of a value spells, and its evaluation: the value comes back with
every number replaced by the double that a script observes. -/
namespace ConfigModules

namespace Value

mutual

/-- The value with other numbers at the same places. -/
def mapNumbers (f : Number → Number) : Value → Value
  | .null => .null
  | .boolean b => .boolean b
  | .number n => .number (f n)
  | .string s => .string s
  | .sequence items => .sequence (mapItems f items)
  | .mapping entries => .mapping (mapEntries f entries)

def mapItems (f : Number → Number) : List Value → List Value
  | [] => []
  | v :: vs => v.mapNumbers f :: mapItems f vs

def mapEntries (f : Number → Number) : List (String × Value) → List (String × Value)
  | [] => []
  | (k, v) :: es => (k, v.mapNumbers f) :: mapEntries f es

end

end Value

namespace Script

def signed (negative : Bool) (e : Expression) : Expression := if negative then .negation e else e

def numberExpression : Number → Expression
  | .unsigned n => .number (Double.ofNat n.toNat)
  | .signed i => signed (i.toInt < 0) (.number (Double.ofNat i.toInt.natAbs))
  | .real .nan => .identifier "NaN"
  | .real (.infinite negative) => signed negative (.identifier "Infinity")
  | .real (.finite negative rank) => signed negative (.number (.finite false rank))

/-- A key of a literal, and whether it is computed. -/
def literalKey (k : String) : PropertyKey × Bool :=
  if k = protoKey then (.string k, true)
  else if isPlainKey k.toList then (.identifier k, false)
  else (.string k, false)

mutual

/-- The expression that a literal spells. -/
def literalExpression : Value → Expression
  | .null => .null
  | .boolean b => .boolean b
  | .number n => numberExpression n
  | .string s => .string s
  | .sequence items => .array (literalElements items)
  | .mapping entries => .object (literalMembers entries)

def literalElements : List Value → List Element
  | [] => []
  | v :: vs => .item (literalExpression v) :: literalElements vs

def literalMembers : List (String × Value) → List Member
  | [] => []
  | (k, v) :: es =>
    .property (literalKey k).1 (literalKey k).2 (literalExpression v) :: literalMembers es

end

theorem isComplete_signed (negative : Bool) (e : Expression) :
    (signed negative e).isComplete = e.isComplete := by
  cases negative <;> simp [signed, Expression.isComplete]

theorem isComplete_numberExpression (n : Number) : (numberExpression n).isComplete = true := by
  cases n with
  | unsigned n => rfl
  | signed i => rw [numberExpression, isComplete_signed]; rfl
  | real x =>
    cases x with
    | nan => rfl
    | infinite negative => rw [numberExpression, isComplete_signed]; rfl
    | finite negative rank => rw [numberExpression, isComplete_signed]; rfl

mutual

@[simp] theorem isComplete_literalExpression : (v : Value) → (literalExpression v).isComplete = true
  | .null => rfl
  | .boolean _ => rfl
  | .number n => isComplete_numberExpression n
  | .string _ => rfl
  | .sequence items => elementsComplete_literalElements items
  | .mapping entries => membersComplete_literalMembers entries

theorem elementsComplete_literalElements :
    (items : List Value) → elementsComplete (literalElements items) = true
  | [] => rfl
  | v :: vs => by
    simp [literalElements, elementsComplete, isComplete_literalExpression v,
      elementsComplete_literalElements vs]

theorem membersComplete_literalMembers :
    (entries : List (String × Value)) → membersComplete (literalMembers entries) = true
  | [] => rfl
  | (_, v) :: es => by
    simp [literalMembers, membersComplete, isComplete_literalExpression v,
      membersComplete_literalMembers es]

end

/-- A key of a literal names the property that it was written for. -/
theorem name_literalKey (k : String) : (literalKey k).1.name (literalKey k).2 = .ok k := by
  unfold literalKey
  split_ifs with hproto hplain
  · simp [PropertyKey.name]
  · simp [PropertyKey.name, hproto]
  · simp [PropertyKey.name, hproto]

theorem neg_ofRank (r : Nat) : -(Double.ofRank false r) = Double.ofRank true r := by
  unfold Double.ofRank
  split_ifs <;> rfl

theorem evaluate_signed {e : Expression} {x : Double}
    (he : e.evaluate = .ok (.number (.real x))) (negative : Bool) :
    (signed negative e).evaluate = .ok (.number (.real (if negative then -x else x))) := by
  cases negative with
  | false => simpa [signed] using he
  | true => simp [signed, Expression.evaluate, he, negated, Number.asDouble]

theorem signed_ofNat (i : Int) :
    (if decide (i < 0) then -Double.ofNat i.natAbs else Double.ofNat i.natAbs) = Double.ofInt i := by
  by_cases h : i < 0
  · simp [h, Double.ofInt, Double.ofNat, Double.ofQuotient, neg_ofRank]
  · simp [h, Double.ofInt, Double.ofNat]

/-- The literal of a number evaluates to the double that a script observes. -/
theorem evaluate_numberExpression (n : Number) :
    (numberExpression n).evaluate = .ok (.number (.real n.asDouble)) := by
  cases n with
  | unsigned n => rfl
  | signed i =>
    have he := evaluate_signed (e := .number (Double.ofNat i.toInt.natAbs)) rfl (i.toInt < 0)
    rw [signed_ofNat] at he
    exact he
  | real x =>
    cases x with
    | nan => simp [numberExpression, Expression.evaluate, Number.asDouble]
    | infinite negative =>
      have he := evaluate_signed (e := .identifier "Infinity") (x := .infinite false)
        (by simp [Expression.evaluate]) negative
      cases negative <;> exact he
    | finite negative rank =>
      have he := evaluate_signed (e := .number (.finite false rank)) rfl negative
      cases negative <;> exact he

/-- The number that a script observes. -/
def observed (n : Number) : Number := .real n.asDouble

mutual

theorem evaluate_literalExpression : (v : Value) → v.KeysDistinct →
    (literalExpression v).evaluate = .ok (v.mapNumbers observed)
  | .null, _ => rfl
  | .boolean _, _ => rfl
  | .number n, _ => evaluate_numberExpression n
  | .string _, _ => rfl
  | .sequence items, h => by
    have hvalues := elementValues_literalElements items h []
    simp [literalExpression, Expression.evaluate, hvalues, Value.mapNumbers]
  | .mapping entries, h => by
    obtain ⟨m, hm, hlist⟩ := memberValues_literalMembers entries h.2 ∅ h.1
    have hempty : (∅ : Mapping Value).toList = [] := rfl
    rw [hempty, List.nil_append] at hlist
    simp [literalExpression, Expression.evaluate, hm, Value.ofMapping, hlist, Value.mapNumbers]

theorem elementValues_literalElements : (items : List Value) → Value.ItemsDistinct items →
    (done : List Value) → elementValues (literalElements items) done =
      .ok (done.reverse ++ Value.mapItems observed items)
  | [], _, done => by simp [literalElements, elementValues, Value.mapItems]
  | v :: vs, h, done => by
    have hv := evaluate_literalExpression v h.1
    have hvs := elementValues_literalElements vs h.2 (v.mapNumbers observed :: done)
    simp [literalElements, elementValues, hv, hvs, Value.mapItems]

/-- Properties are added behind those that are there, as long as no name is known already. -/
theorem memberValues_literalMembers : (entries : List (String × Value)) →
    Value.EntriesDistinct entries → (m : Mapping Value) →
    (m.keys ++ entries.map Prod.fst).Nodup →
    ∃ m', memberValues (literalMembers entries) m = .ok m' ∧
      m'.toList = m.toList ++ Value.mapEntries observed entries
  | [], _, m, _ => ⟨m, rfl, (List.append_nil _).symm⟩
  | (k, v) :: es, h, m, hkeys => by
    have hv := evaluate_literalExpression v h.1
    have hnew : m.isNew k = true := by
      rw [Mapping.isNew_iff]
      intro hk
      exact (List.nodup_append.mp hkeys).2.2 k hk k List.mem_cons_self rfl
    have hlist := Mapping.toList_insertNew hnew (v.mapNumbers observed)
    have hmore : ((m.insertNew k (v.mapNumbers observed)).keys ++ es.map Prod.fst).Nodup := by
      rw [Mapping.keys, hlist, List.map_append, List.append_assoc]
      exact hkeys
    obtain ⟨m', hm', hlist'⟩ := memberValues_literalMembers es h.2 _ hmore
    refine ⟨m', ?_, ?_⟩
    · simp [literalMembers, memberValues, name_literalKey, hv, hnew, hm']
    · rw [hlist', hlist, List.append_assoc]
      rfl

end

end Script

end ConfigModules
