import ConfigModules.Decoding
import ConfigModules.Proofs.Yields

/-! Decoded values are well formed: no mapping in them has a key twice. -/
namespace ConfigModules

namespace Value

theorem itemsDistinct_iff {items : List Value} :
    ItemsDistinct items ↔ ∀ v ∈ items, v.KeysDistinct := by
  induction items with
  | nil => simp [ItemsDistinct]
  | cons v vs ih => simp [ItemsDistinct, ih]

theorem entriesDistinct_iff {entries : List (String × Value)} :
    EntriesDistinct entries ↔ ∀ e ∈ entries, e.2.KeysDistinct := by
  induction entries with
  | nil => simp [EntriesDistinct]
  | cons e es ih => simp [EntriesDistinct, ih]

end Value

namespace Yaml.Tree

mutual

theorem keysDistinct_toValue : (t : Tree) → {v : Value} → t.toValue = .ok v → v.KeysDistinct
  | .null, _, h => by cases h; trivial
  | .boolean _, _, h => by cases h; trivial
  | .number _, _, h => by cases h; trivial
  | .string _, _, h => by cases h; trivial
  | .sequence items, v, h => by
    rw [toValue] at h
    cases hitems : itemValues items 0 [] with
    | error f => simp [hitems] at h
    | ok values =>
      obtain rfl : .sequence values = v := by simpa [hitems] using h
      exact Value.itemsDistinct_iff.mpr (keysDistinct_itemValues items (by simp) hitems)
  | .mapping entries, v, h => by
    rw [toValue] at h
    cases hentries : entryValues entries ∅ with
    | error f => simp [hentries] at h
    | ok m =>
      obtain rfl : Value.ofMapping m = v := by simpa [hentries] using h
      have hempty : ∀ e ∈ (∅ : Mapping Value).toList, e.2.KeysDistinct := List.forall_mem_nil _
      exact ⟨m.nodup_keys,
        Value.entriesDistinct_iff.mpr (keysDistinct_entryValues entries hempty hentries)⟩
  | .tagged _ content, _, h => keysDistinct_toValue content h

theorem keysDistinct_itemValues : (items : List Tree) → {i : Nat} → {done values : List Value} →
    (∀ v ∈ done, v.KeysDistinct) → itemValues items i done = .ok values →
    ∀ v ∈ values, v.KeysDistinct
  | [], _, done, values, hdone, h => by
    obtain rfl : done.reverse = values := by simpa [itemValues] using h
    simpa using hdone
  | t :: ts, i, done, values, hdone, h => by
    rw [itemValues] at h
    cases ht : t.toValue with
    | error f => simp [ht] at h
    | ok v =>
      have hdone' : ∀ w ∈ v :: done, w.KeysDistinct :=
        List.forall_mem_cons.mpr ⟨keysDistinct_toValue t ht, hdone⟩
      exact keysDistinct_itemValues ts hdone' (by simpa [ht] using h)

theorem keysDistinct_entryValues : (entries : List (Tree × Tree)) → {m m' : Mapping Value} →
    (∀ e ∈ m.toList, e.2.KeysDistinct) → entryValues entries m = .ok m' →
    ∀ e ∈ m'.toList, e.2.KeysDistinct
  | [], m, m', hm, h => by
    obtain rfl : m = m' := by simpa [entryValues] using h
    exact hm
  | (k, t) :: es, m, m', hm, h => by
    rw [entryValues] at h
    cases hk : k.propertyName with
    | error problem => simp [hk] at h
    | ok name =>
      cases ht : t.toValue with
      | error f => simp [hk, ht] at h
      | ok v =>
        cases hnew : m.isNew name with
        | false => simp [hk, ht, hnew] at h
        | true =>
          have hm' : ∀ e ∈ (m.insertNew name v).toList, e.2.KeysDistinct := by
            rw [Mapping.toList_insertNew hnew]
            intro e he
            rcases List.mem_append.mp he with he | he
            · exact hm e he
            · rw [List.mem_singleton.mp he]
              exact keysDistinct_toValue t ht
          exact keysDistinct_entryValues es hm' (by simpa [hk, ht, hnew] using h)

end

end Yaml.Tree

/-- The root shows in faults alone. -/
theorem documentValue_ok_iff {root : List ValueStep} {t : Yaml.Tree} {v : Value} :
    documentValue root t = .ok v ↔ t.toValue = .ok v := by
  rw [documentValue]
  cases t.toValue <;> simp [Except.mapError]

theorem keysDistinct_documentValue {root : List ValueStep} {t : Yaml.Tree} {v : Value}
    (h : documentValue root t = .ok v) : v.KeysDistinct :=
  Yaml.Tree.keysDistinct_toValue t (documentValue_ok_iff.mp h)

theorem keysDistinct_documentValues {ts : List Yaml.Tree} {i : Nat} {values : List Value}
    (h : documentValues i ts = .ok values) : ∀ v ∈ values, v.KeysDistinct := by
  induction ts generalizing i values with
  | nil =>
    obtain rfl : [] = values := Except.ok.inj h
    exact List.forall_mem_nil _
  | cons t ts ih =>
    obtain ⟨v, hv, hmore⟩ := exists_of_bind_eq_ok h
    obtain ⟨vs, hvs, hvalues⟩ := exists_of_bind_eq_ok hmore
    obtain rfl : v :: vs = values := Except.ok.inj hvalues
    exact List.forall_mem_cons.mpr ⟨keysDistinct_documentValue hv, ih hvs⟩

theorem keysDistinct_combine {policy : MultiDocument} {trees : List Yaml.Tree} {v : Value}
    (h : combine policy trees = .ok v) : v.KeysDistinct := by
  cases policy with
  | array =>
    obtain ⟨values, hvalues, hv⟩ := exists_of_bind_eq_ok h
    obtain rfl : .sequence values = v := Except.ok.inj hv
    exact Value.itemsDistinct_iff.mpr (keysDistinct_documentValues hvalues)
  | reject =>
    match trees, h with
    | [], h =>
      obtain rfl : .null = v := Except.ok.inj h
      trivial
    | [t], h => exact keysDistinct_documentValue h

/-- No mapping of a decoded value has a key twice. -/
theorem keysDistinct_decode {options : DecodeOptions} {source : String} {v : Value}
    (h : decode options source = .ok v) : v.KeysDistinct := by
  rw [decode, decodeChars] at h
  split at h
  · cases h
  · exact keysDistinct_combine h

end ConfigModules
