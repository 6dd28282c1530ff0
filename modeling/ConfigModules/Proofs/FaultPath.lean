import ConfigModules.Proofs.Conversion

/-! Conversion with the text of the path at hand. The text grows on the way down, and a fault takes the one of
the mapping that it is met in. That is the fault of the plain conversion, its steps written behind the text
that the way began with. -/
namespace ConfigModules

/-- What is wrong with a key, and the text of the path to the mapping that has it. -/
structure PathFault where
  path : String
  problem : KeyProblem
deriving DecidableEq

namespace PathFault

def message : PathFault → String
  | ⟨path, .unsupported .sequence⟩ => "sequence used as a mapping key at " ++ path
  | ⟨path, .unsupported .mapping⟩ => "mapping used as a mapping key at " ++ path
  | ⟨path, .duplicate name⟩ => "duplicate key " ++ Quotation.text name ++ " at " ++ path

end PathFault

/-- The text of a path followed by steps: elements by their index from zero, entries by their name. -/
def pathAfter : String → List ValueStep → String
  | path, [] => path
  | path, .item i :: steps => pathAfter (path ++ "[" ++ toString i ++ "]") steps
  | path, .field name :: steps => pathAfter (path ++ "." ++ name) steps

/-- A fault seen from a path. -/
def KeyFault.seenFrom (path : String) (f : KeyFault) : PathFault := ⟨pathAfter path f.steps, f.problem⟩

namespace Yaml.Tree

/-- The property name of a key of the mapping at a path. -/
def nameAt : Tree → (path : String) → Except PathFault String
  | .string s, _ => .ok s
  | .null, _ => .ok ""
  | .boolean b, _ => .ok (if b then "true" else "false")
  | .number n, _ => .ok n.ofTree.propertyKey
  | .tagged _ key, path => key.nameAt path
  | .sequence _, path => .error ⟨path, .unsupported .sequence⟩
  | .mapping _, path => .error ⟨path, .unsupported .mapping⟩

mutual

/-- The value of the tree at a path. -/
def convert : Tree → (path : String) → Except PathFault Value
  | .null, _ => .ok .null
  | .boolean b, _ => .ok (.boolean b)
  | .number n, _ => .ok (.number n.ofTree)
  | .string s, _ => .ok (.string s)
  | .sequence items, path => do
    let values ← convertItems items path 0
    return .sequence values
  | .mapping entries, path => do
    let m ← convertEntries entries path ∅
    return .ofMapping m
  | .tagged _ content, path => content.convert path

/-- The values of elements from an index on. -/
def convertItems : List Tree → (path : String) → (index : Nat) → Except PathFault (List Value)
  | [], _, _ => .ok []
  | t :: ts, path, i => do
    let v ← t.convert (path ++ "[" ++ toString i ++ "]")
    let vs ← convertItems ts path (i + 1)
    return v :: vs

def convertEntries : List (Tree × Tree) → (path : String) → Mapping Value →
    Except PathFault (Mapping Value)
  | [], _, m => .ok m
  | (k, t) :: es, path, m => do
    let name ← k.nameAt path
    let v ← t.convert (path ++ "." ++ name)
    if m.isNew name then convertEntries es path (m.insertNew name v)
    else .error ⟨path, .duplicate name⟩

end

theorem nameAt_eq (k : Tree) (path : String) :
    k.nameAt path = k.propertyName.mapError (⟨path, ·⟩) := by
  induction k using induct with
  | tagged tag k ih => exact ih
  | _ => rfl

theorem convertItems_eq {items : List Tree}
    (h : ∀ t ∈ items, ∀ path, t.convert path = t.toValue.mapError (KeyFault.seenFrom path))
    (path : String) (i : Nat) (done : List Value) :
    (done.reverse ++ ·) <$> convertItems items path i =
      (itemValues items i done).mapError (KeyFault.seenFrom path) := by
  induction items generalizing i done with
  | nil => simp [convertItems, itemValues, Except.mapError]
  | cons t ts ih =>
    obtain ⟨ht, hts⟩ := List.forall_mem_cons.mp h
    rw [convertItems, itemValues, ht]
    cases t.toValue with
    | error f => rfl
    | ok v =>
      have hrest := ih hts (i + 1) (v :: done)
      rw [← hrest]
      cases convertItems ts path (i + 1) with
      | error f => rfl
      | ok vs => simp [Except.mapError, bind, Except.bind, pure, Except.pure]

theorem convertEntries_eq {entries : List (Tree × Tree)}
    (h : ∀ e ∈ entries, ∀ path, e.2.convert path = e.2.toValue.mapError (KeyFault.seenFrom path))
    (path : String) (m : Mapping Value) :
    convertEntries entries path m = (entryValues entries m).mapError (KeyFault.seenFrom path) := by
  induction entries generalizing m with
  | nil => rfl
  | cons e es ih =>
    obtain ⟨k, t⟩ := e
    obtain ⟨ht, hes⟩ := List.forall_mem_cons.mp h
    rw [convertEntries, entryValues, nameAt_eq]
    cases k.propertyName with
    | error problem => rfl
    | ok name =>
      have ht := ht (path ++ "." ++ name)
      dsimp only [Except.mapError, bind, Except.bind] at ht ⊢
      rw [ht]
      cases t.toValue with
      | error f => rfl
      | ok v =>
        dsimp only [Except.mapError]
        split_ifs
        · exact ih hes _
        · rfl

/-- By induction on the tree, for every path at once: an element or entry is converted at a longer one. -/
theorem convert_eq (t : Tree) (path : String) :
    t.convert path = t.toValue.mapError (KeyFault.seenFrom path) := by
  induction t using induct generalizing path with
  | null | boolean | number | string => rfl
  | sequence items ih =>
    have hitems := convertItems_eq ih path 0 []
    simp only [List.reverse_nil, List.nil_append, id_map'] at hitems
    rw [convert, toValue, hitems]
    cases itemValues items 0 [] <;> rfl
  | mapping entries ih =>
    rw [convert, toValue, convertEntries_eq (fun e he => (ih e he).2)]
    cases entryValues entries ∅ <;> rfl
  | tagged tag t ih => exact ih path

theorem convert_ok_iff {t : Tree} {path : String} {v : Value} :
    t.convert path = .ok v ↔ t.toValue = .ok v := by
  rw [convert_eq]
  cases t.toValue <;> simp [Except.mapError]

theorem convert_error_iff {t : Tree} {path : String} {e : PathFault} :
    t.convert path = .error e ↔ ∃ f, t.toValue = .error f ∧ e = f.seenFrom path := by
  rw [convert_eq]
  cases t.toValue <;> simp [Except.mapError, eq_comm]

end Yaml.Tree

end ConfigModules
