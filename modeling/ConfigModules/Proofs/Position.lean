import ConfigModules.Proofs.Conversion

/-! Positions in trees and in their values. A position that leads somewhere in a value leads to the part of
the tree that the part of the value comes from. -/
namespace ConfigModules

/-- The part of a value at a position. -/
def Value.at? : List ValueStep → Value → Option Value
  | [], v => some v
  | .item i :: p, v => (v.items?.bind (·[i]?)).bind (at? p)
  | .field name :: p, v => (v.get? name).bind (at? p)

/-- The part of a tree at a position, without the tags around it. -/
def Yaml.Tree.at? : List ValueStep → Yaml.Tree → Option Yaml.Tree
  | [], t => some t.untagged
  | .item i :: p, t =>
    match t.untagged with
    | .sequence items => items[i]?.bind (at? p)
    | _ => none
  | .field name :: p, t =>
    match t.untagged with
    | .mapping entries => (entries.find? fun e => e.1.keyName? == some name).bind fun e => e.2.at? p
    | _ => none

theorem Value.at?_item_iff {v u : Value} {i : Nat} {p : List ValueStep} :
    v.at? (.item i :: p) = some u ↔
      ∃ values x, v = .sequence values ∧ values[i]? = some x ∧ x.at? p = some u := by
  cases v <;> simp [at?, items?, Option.bind_eq_some_iff]

theorem Value.at?_field_iff {v u : Value} {name : String} {p : List ValueStep} :
    v.at? (.field name :: p) = some u ↔
      ∃ fields x, v = .mapping fields ∧ fields.lookup name = some x ∧ x.at? p = some u := by
  cases v <;> simp [at?, get?, entries?, Option.bind_eq_some_iff]

theorem Value.keysDistinct_item {items : List Value} (h : (Value.sequence items).KeysDistinct) {v : Value}
    (hv : v ∈ items) : v.KeysDistinct :=
  itemsDistinct_iff.mp h v hv

theorem Value.keysDistinct_field {fields : List (String × Value)} (h : (Value.mapping fields).KeysDistinct)
    {f : String × Value} (hf : f ∈ fields) : f.2.KeysDistinct :=
  entriesDistinct_iff.mp h.2 f hf

namespace Yaml.Tree

theorem reaches_of_untagged {t m : Tree} (h : t.untagged.Reaches m) : t.Reaches m := by
  induction t using induct with
  | tagged tag t ih => exact .content (ih h)
  | _ => exact h

theorem untagged_of_sequence {t : Tree} {values : List Value} (h : t.HasValue (.sequence values)) :
    ∃ items, t.untagged = .sequence items ∧ List.Forall₂ HasValue items values := by
  induction t using induct with
  | sequence items =>
    cases h with
    | sequence hvalues => exact ⟨items, rfl, hvalues⟩
  | tagged tag t ih =>
    cases h with
    | tagged _ h => exact ih h
  | _ => cases h

theorem untagged_of_mapping {t : Tree} {fields : List (String × Value)} (h : t.HasValue (.mapping fields)) :
    ∃ entries, t.untagged = .mapping entries ∧
      List.Forall₂ (fun e f => e.1.keyName? = some f.1 ∧ e.2.HasValue f.2) entries fields := by
  induction t using induct with
  | mapping entries =>
    obtain ⟨_, hfields, hentries⟩ := hasValue_mapping_iff.mp h
    cases hfields
    exact ⟨entries, rfl, hentries⟩
  | tagged tag t ih =>
    cases h with
    | tagged _ h => exact ih h
  | _ => cases h

/-- The entry that a field comes from is found under its name. -/
theorem find?_of_lookup {entries : List (Tree × Tree)} {fields : List (String × Value)}
    (h : List.Forall₂ (fun e f => e.1.keyName? = some f.1 ∧ e.2.HasValue f.2) entries fields)
    {name : String} {v : Value} (hv : fields.lookup name = some v) :
    ∃ e, entries.find? (fun e => e.1.keyName? == some name) = some e ∧ e.2.HasValue v := by
  induction h with
  | nil => cases hv
  | @cons e f es fs hef _ ih =>
    rw [List.lookup_cons] at hv
    rw [List.find?_cons, hef.1, Option.some_beq_some]
    cases hname : name == f.1 with
    | true =>
      rw [hname, Option.some.injEq] at hv
      rw [BEq.symm hname]
      exact ⟨e, rfl, hv ▸ hef.2⟩
    | false =>
      rw [hname] at hv
      rw [BEq.symm_false hname]
      exact ih hv

/-- Every mapping of a value comes from a mapping that the tree reaches. -/
theorem exists_reaches {p : List ValueStep} {t : Tree} {v : Value} {fields : List (String × Value)}
    (hvalue : t.HasValue v) (hp : v.at? p = some (.mapping fields)) :
    ∃ entries, t.Reaches (.mapping entries) ∧
      List.Forall₂ (fun e f => e.1.keyName? = some f.1 ∧ e.2.HasValue f.2) entries fields := by
  induction p generalizing t v with
  | nil =>
    obtain rfl := Option.some.inj hp
    obtain ⟨entries, huntagged, hfields⟩ := untagged_of_mapping hvalue
    exact ⟨entries, reaches_of_untagged (huntagged ▸ .here _), hfields⟩
  | cons step p ih =>
    cases step with
    | item i =>
      obtain ⟨values, x, rfl, hx, hp⟩ := Value.at?_item_iff.mp hp
      obtain ⟨items, huntagged, hvalues⟩ := untagged_of_sequence hvalue
      obtain ⟨u, hu, hux⟩ := exists_getElem? hvalues hx
      obtain ⟨entries, hreach, hfields⟩ := ih hux hp
      have hitem : t.untagged.Reaches (.mapping entries) :=
        huntagged ▸ .item (List.mem_of_getElem? hu) hreach
      exact ⟨entries, reaches_of_untagged hitem, hfields⟩
    | field name =>
      obtain ⟨more, x, rfl, hx, hp⟩ := Value.at?_field_iff.mp hp
      obtain ⟨outer, huntagged, houter⟩ := untagged_of_mapping hvalue
      obtain ⟨e, he, hex⟩ := find?_of_lookup houter hx
      obtain ⟨entries, hreach, hfields⟩ := ih hex hp
      have hentry : t.untagged.Reaches (.mapping entries) :=
        huntagged ▸ .value (List.mem_of_find?_eq_some he) hreach
      exact ⟨entries, reaches_of_untagged hentry, hfields⟩

/-- What a tree reaches has a position in its value. -/
theorem exists_position {t m : Tree} {v : Value} (hreach : t.Reaches m) (hvalue : t.HasValue v)
    (hkeys : v.KeysDistinct) : ∃ p u, v.at? p = some u ∧ m.HasValue u := by
  induction hreach generalizing v with
  | here => exact ⟨[], v, rfl, hvalue⟩
  | item ht _ ih =>
    cases hvalue with
    | sequence hvalues =>
      obtain ⟨x, hx, htx⟩ := exists_mem_right hvalues ht
      obtain ⟨p, u, hp, hu⟩ := ih htx (Value.keysDistinct_item hkeys hx)
      obtain ⟨i, hi⟩ := List.mem_iff_getElem?.mp hx
      exact ⟨.item i :: p, u, Value.at?_item_iff.mpr ⟨_, x, rfl, hi, hp⟩, hu⟩
  | value he _ ih =>
    obtain ⟨fields, rfl, hfields⟩ := hasValue_mapping_iff.mp hvalue
    obtain ⟨f, hf, _, hef⟩ := exists_mem_right hfields he
    obtain ⟨p, u, hp, hu⟩ := ih hef (Value.keysDistinct_field hkeys hf)
    exact ⟨.field f.1 :: p, u, Value.at?_field_iff.mpr ⟨fields, f.2, rfl, lookup_of_mem hkeys.1 hf, hp⟩, hu⟩
  | content _ ih =>
    cases hvalue with
    | tagged _ hvalue => exact ih hvalue hkeys

end Yaml.Tree

end ConfigModules
