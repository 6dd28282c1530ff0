import ConfigModules.Proofs.Script.LiteralExpression
import ConfigModules.Proofs.Yaml.Tree
import Mathlib.Algebra.Order.Ring.Nat

/-! Equality of values as equality of trees. What a script cannot tell apart is written in one way: every number
as its double, and zero without a sign. Two values are equal exactly if they are then the same tree. -/
namespace ConfigModules

theorem Double.unsignedZero_unsignedZero (x : Double) : x.unsignedZero.unsignedZero = x.unsignedZero := by
  cases x with
  | nan => rfl
  | infinite negative => rfl
  | finite negative rank => simp [unsignedZero_finite]

namespace Number

/-- A number as the double that a script observes. Zero loses its sign; there is one NaN. -/
def normal (n : Number) : Number := .real n.asDouble.unsignedZero

theorem same_iff_normal {m n : Number} : m.same n = true ↔ m.normal = n.normal := by
  rw [normal, normal, Number.real.injEq, ← Double.equal_iff]
  rfl

@[simp] theorem normal_normal (n : Number) : n.normal.normal = n.normal :=
  congrArg Number.real (Double.unsignedZero_unsignedZero n.asDouble)

end Number

namespace Value

/-- A value with all its numbers in normal form. -/
def normal (v : Value) : Value := v.mapNumbers Number.normal

mutual

theorem same_iff_normal : (v w : Value) → (v.same w = true ↔ v.normal = w.normal)
  | .null, w => by cases w <;> simp [same, normal, mapNumbers]
  | .boolean a, w => by cases w <;> simp [same, normal, mapNumbers]
  | .number m, w => by cases w <;> simp [same, normal, mapNumbers, Number.same_iff_normal]
  | .string s, w => by cases w <;> simp [same, normal, mapNumbers]
  | .sequence as, w => by
    cases w with
    | sequence bs => simpa [same, normal, mapNumbers] using sameItems_iff_normal as bs
    | _ => simp [same, normal, mapNumbers]
  | .mapping as, w => by
    cases w with
    | mapping bs => simpa [same, normal, mapNumbers] using sameEntries_iff_normal as bs
    | _ => simp [same, normal, mapNumbers]

theorem sameItems_iff_normal : (as bs : List Value) →
    (sameItems as bs = true ↔ mapItems Number.normal as = mapItems Number.normal bs)
  | [], bs => by cases bs <;> simp [sameItems, mapItems]
  | a :: as, [] => by simp [sameItems, mapItems]
  | a :: as, b :: bs => by
    rw [sameItems, Bool.and_eq_true, same_iff_normal a b, sameItems_iff_normal as bs, mapItems, mapItems,
      List.cons.injEq]
    rfl

theorem sameEntries_iff_normal : (as bs : List (String × Value)) →
    (sameEntries as bs = true ↔ mapEntries Number.normal as = mapEntries Number.normal bs)
  | [], bs => by cases bs <;> simp [sameEntries, mapEntries]
  | (j, a) :: as, [] => by simp [sameEntries, mapEntries]
  | (j, a) :: as, (k, b) :: bs => by
    rw [sameEntries, Bool.and_eq_true, Bool.and_eq_true, beq_iff_eq, same_iff_normal a b,
      sameEntries_iff_normal as bs, mapEntries, mapEntries, List.cons.injEq, Prod.mk.injEq]
    rfl

end

mutual

theorem mapNumbers_mapNumbers (f g : Number → Number) :
    (v : Value) → (v.mapNumbers g).mapNumbers f = v.mapNumbers fun n => f (g n)
  | .null => rfl
  | .boolean _ => rfl
  | .number _ => rfl
  | .string _ => rfl
  | .sequence items => congrArg Value.sequence (mapItems_mapItems f g items)
  | .mapping entries => congrArg Value.mapping (mapEntries_mapEntries f g entries)

theorem mapItems_mapItems (f g : Number → Number) :
    (items : List Value) → mapItems f (mapItems g items) = mapItems (fun n => f (g n)) items
  | [] => rfl
  | v :: vs => by
    rw [mapItems, mapItems, mapItems, mapNumbers_mapNumbers f g v, mapItems_mapItems f g vs]

theorem mapEntries_mapEntries (f g : Number → Number) :
    (entries : List (String × Value)) → mapEntries f (mapEntries g entries) =
      mapEntries (fun n => f (g n)) entries
  | [] => rfl
  | (k, v) :: es => by
    rw [mapEntries, mapEntries, mapEntries, mapNumbers_mapNumbers f g v, mapEntries_mapEntries f g es]

end

theorem normal_normal (v : Value) : v.normal.normal = v.normal := by
  simp only [normal, mapNumbers_mapNumbers, Number.normal_normal]

/-- Every value is equal to its normal form. -/
theorem same_normal (v : Value) : v.same v.normal = true := by
  rw [same_iff_normal, normal_normal]

theorem same_asDouble (n : Number) : (number n).same (number (.real n.asDouble)) = true := by
  rw [same_iff_normal]
  rfl

theorem equivalence_same : Equivalence fun v w : Value => v.same w = true := by
  refine ⟨fun v => ?_, fun {v w} h => ?_, fun {u v w} h h' => ?_⟩
  · exact (same_iff_normal v v).mpr rfl
  · exact (same_iff_normal w v).mpr ((same_iff_normal v w).mp h).symm
  · exact (same_iff_normal u w).mpr (((same_iff_normal u v).mp h).trans ((same_iff_normal v w).mp h'))

end Value

/-- Two values are equal if and only if their normal forms are the same tree, so equality is an equivalence,
with a NaN too, and every value is equal to its own normal form. It sees integers through their doubles: a
number is equal to its double, whatever its form, and beyond 2^53 two integers may be equal. -/
theorem equal_iff_normal_forms_identical :
    (∀ v w : Value, v.same w = true ↔ v.normal = w.normal) ∧
      (Equivalence fun v w : Value => v.same w = true) ∧
      (∀ v : Value, v.same v.normal = true ∧ v.normal.normal = v.normal) ∧
      (∀ n : Number, (Value.number n).same (.number (.real n.asDouble)) = true) ∧
      ∃ m n : UInt64, 2 ^ 53 ≤ m.toNat ∧ 2 ^ 53 ≤ n.toNat ∧ m ≠ n ∧
        (Value.number (.unsigned m)).same (.number (.unsigned n)) = true := by
  refine ⟨Value.same_iff_normal, Value.equivalence_same, ?_, Value.same_asDouble, ?_⟩
  · exact fun v => ⟨v.same_normal, v.normal_normal⟩
  · have hsame : Number.same (.unsigned 9007199254740992) (.unsigned 9007199254740993) = true := by
      decide +kernel
    exact ⟨9007199254740992, 9007199254740993, by decide, by decide, by decide, hsame⟩

end ConfigModules
