import ConfigModules.Proofs.Decoding
import ConfigModules.Proofs.Mapping
import ConfigModules.Proofs.Yaml.Tree
import Mathlib.Data.List.Nodup

/-! Conversion of trees. It succeeds where all keys are scalars and no mapping has two keys of one name,
and it drops nothing but tags. -/
namespace ConfigModules

namespace Yaml.Tree

/-! ## What a value of a tree is -/

/-- A tree without the tags around it. -/
def untagged : Tree → Tree
  | .tagged _ t => t.untagged
  | t => t

def isScalar : Tree → Bool
  | .sequence _ | .mapping _ | .tagged _ _ => false
  | _ => true

/-- The text of a scalar as a property name. -/
def scalarName? : Tree → Option String
  | .string s => some s
  | .null => some ""
  | .boolean true => some "true"
  | .boolean false => some "false"
  | .number n => some n.propertyKey
  | _ => none

def keyName? (k : Tree) : Option String := k.untagged.scalarName?

/-- Every mapping that is reached has scalar keys, and no two of one name. -/
def Convertible (t : Tree) : Prop :=
  ∀ entries, t.Reaches (.mapping entries) →
    (∀ e ∈ entries, e.1.untagged.isScalar = true) ∧ (entries.map fun e => e.1.keyName?).Nodup

/-- The value is the tree with its tags dropped and its keys named: elements and entries stand in the
same order, and none is missing or added. -/
inductive HasValue : Tree → Value → Prop
  | null : HasValue .null .null
  | boolean (b : Bool) : HasValue (.boolean b) (.boolean b)
  | number (n : Number) : HasValue (.number n) (.number n)
  | string (s : String) : HasValue (.string s) (.string s)
  | sequence {items : List Tree} {values : List Value} :
      List.Forall₂ HasValue items values → HasValue (.sequence items) (.sequence values)
  | mapping {entries : List (Tree × Tree)} {fields : List (String × Value)} :
      (entries.map fun e => e.1.keyName?) = (fields.map fun f => some f.1) →
      List.Forall₂ HasValue (entries.map Prod.snd) (fields.map Prod.snd) →
      HasValue (.mapping entries) (.mapping fields)
  | tagged (tag : String) {t : Tree} {v : Value} : HasValue t v → HasValue (.tagged tag t) v

theorem isScalar_iff {t : Tree} : t.isScalar = true ↔ ∃ name, t.scalarName? = some name := by
  cases t with
  | boolean b => cases b <;> simp [isScalar, scalarName?]
  | _ => simp [isScalar, scalarName?]

theorem propertyName_ok_iff {k : Tree} {name : String} :
    k.propertyName = .ok name ↔ k.keyName? = some name := by
  induction k using induct with
  | boolean b => cases b <;> simp [propertyName, keyName?, untagged, scalarName?]
  | tagged tag k ih => exact ih
  | _ => simp [propertyName, keyName?, untagged, scalarName?]

theorem propertyKey_of_keyNumber {m n : Number} (h : keyNumber m = keyNumber n) :
    m.propertyKey = n.propertyKey := by
  cases m <;> cases n <;> simp_all [keyNumber, Number.propertyKey, Number.asDouble]

/-- Keys that are the same have the same name. -/
theorem keyName?_of_same {j k : Tree} (h : j.same k = true) : j.keyName? = k.keyName? := by
  induction j using induct generalizing k with
  | null => rw [same_null_iff.mp h]
  | boolean b => rw [same_boolean_iff.mp h]
  | number m =>
    obtain ⟨n, rfl, hmn⟩ := same_number_iff.mp h
    exact congrArg some (propertyKey_of_keyNumber hmn)
  | string s => rw [same_string_iff.mp h]
  | sequence items =>
    obtain ⟨_, rfl, _⟩ := same_sequence_iff.mp h
    rfl
  | mapping entries =>
    obtain ⟨_, rfl, _⟩ := same_mapping_iff.mp h
    rfl
  | tagged tag j ih =>
    obtain ⟨_, content, rfl, _, hcontent⟩ := same_tagged_iff.mp h
    have hname : j.keyName? = content.keyName? := ih hcontent
    exact hname

/-! ## Convertible trees -/

theorem convertible_of_isScalar {t : Tree} (h : t.isScalar = true) : t.Convertible := by
  intro entries hreach
  cases hreach <;> cases h

theorem convertible_sequence_iff {items : List Tree} :
    (sequence items).Convertible ↔ ∀ t ∈ items, t.Convertible := by
  constructor
  · intro h t ht entries hreach
    exact h entries (.item ht hreach)
  · intro h entries hreach
    cases hreach with
    | item ht hreach => exact h _ ht entries hreach

theorem convertible_mapping_iff {entries : List (Tree × Tree)} :
    (mapping entries).Convertible ↔
      ((∀ e ∈ entries, e.1.untagged.isScalar = true) ∧ (entries.map fun e => e.1.keyName?).Nodup) ∧
        ∀ e ∈ entries, e.2.Convertible := by
  constructor
  · intro h
    exact ⟨h entries (.here _), fun e he inner hreach => h inner (.value he hreach)⟩
  · rintro ⟨hkeys, hvalues⟩ inner hreach
    cases hreach with
    | here => exact hkeys
    | value he hreach => exact hvalues _ he inner hreach

theorem convertible_tagged_iff {tag : String} {t : Tree} :
    (tagged tag t).Convertible ↔ t.Convertible := by
  constructor
  · intro h entries hreach
    exact h entries (.content hreach)
  · intro h entries hreach
    cases hreach with
    | content hreach => exact h entries hreach

/-! ## The value of a convertible tree -/

/-- A property of entries and fields one by one, told by their names and by their values. -/
theorem entrywise_iff {R : Tree → Value → Prop} {entries : List (Tree × Tree)}
    {fields : List (String × Value)} :
    List.Forall₂ (fun e f => e.1.keyName? = some f.1 ∧ R e.2 f.2) entries fields ↔
      (entries.map fun e => e.1.keyName?) = (fields.map fun f => some f.1) ∧
        List.Forall₂ R (entries.map Prod.snd) (fields.map Prod.snd) := by
  induction entries generalizing fields with
  | nil => cases fields <;> simp
  | cons e es ih =>
    cases fields with
    | nil => simp
    | cons f fs =>
      simp only [List.forall₂_cons, ih, List.map_cons, List.cons.injEq]
      tauto

theorem hasValue_mapping_iff {entries : List (Tree × Tree)} {v : Value} :
    (mapping entries).HasValue v ↔ ∃ fields, v = .mapping fields ∧
      List.Forall₂ (fun e f => e.1.keyName? = some f.1 ∧ e.2.HasValue f.2) entries fields := by
  constructor
  · intro h
    cases h with
    | mapping hnames hvalues => exact ⟨_, rfl, entrywise_iff.mpr ⟨hnames, hvalues⟩⟩
  · rintro ⟨fields, rfl, h⟩
    obtain ⟨hnames, hvalues⟩ := entrywise_iff.mp h
    exact .mapping hnames hvalues

theorem exists_hasValue {t : Tree} (h : t.Convertible) : ∃ v, t.HasValue v := by
  induction t using induct with
  | null => exact ⟨_, .null⟩
  | boolean b => exact ⟨_, .boolean b⟩
  | number n => exact ⟨_, .number n⟩
  | string s => exact ⟨_, .string s⟩
  | sequence items ih =>
    have hitems := convertible_sequence_iff.mp h
    obtain ⟨values, hvalues⟩ := exists_forall₂ fun t ht => ih t ht (hitems t ht)
    exact ⟨_, .sequence hvalues⟩
  | mapping entries ih =>
    obtain ⟨⟨hscalar, _⟩, hvalues⟩ := convertible_mapping_iff.mp h
    have hfield : ∀ e ∈ entries, ∃ f : String × Value, e.1.keyName? = some f.1 ∧ e.2.HasValue f.2 := by
      intro e he
      obtain ⟨name, hname⟩ := isScalar_iff.mp (hscalar e he)
      obtain ⟨v, hv⟩ := (ih e he).2 (hvalues e he)
      exact ⟨(name, v), hname, hv⟩
    obtain ⟨fields, hfields⟩ := exists_forall₂ hfield
    exact ⟨_, hasValue_mapping_iff.mpr ⟨fields, rfl, hfields⟩⟩
  | tagged tag t ih =>
    obtain ⟨v, hv⟩ := ih (convertible_tagged_iff.mp h)
    exact ⟨v, .tagged tag hv⟩

/-! ## Conversion -/

theorem itemValues_ok_iff {items : List Tree} {i : Nat} {before values : List Value} :
    itemValues items i before = .ok values ↔
      ∃ more, List.Forall₂ (fun t v => t.toValue = .ok v) items more ∧ values = before.reverse ++ more := by
  induction items generalizing i before with
  | nil => simp [itemValues, eq_comm]
  | cons t ts ih =>
    rw [itemValues]
    cases ht : t.toValue with
    | error f => simp [ht, List.forall₂_cons_left_iff]
    | ok v => simp [ht, ih, List.forall₂_cons_left_iff]

/-- One entry is added under its name, which has to be new. -/
theorem entryValues_cons_ok_iff {e : Tree × Tree} {es : List (Tree × Tree)} {m m' : Mapping Value} :
    entryValues (e :: es) m = .ok m' ↔
      ∃ f : String × Value, (e.1.keyName? = some f.1 ∧ e.2.toValue = .ok f.2) ∧
        m.isNew f.1 = true ∧ entryValues es (m.insertNew f.1 f.2) = .ok m' := by
  obtain ⟨k, t⟩ := e
  rw [entryValues]
  simp only [← propertyName_ok_iff, Prod.exists]
  cases hk : k.propertyName with
  | error problem => simp
  | ok name =>
    cases ht : t.toValue with
    | error f => simp
    | ok v =>
      cases hnew : m.isNew name with
      | false => simp [hnew]
      | true => simp [hnew]

/-- Adding entries to a mapping appends a field for each, and all names differ. -/
theorem entryValues_ok_iff {entries : List (Tree × Tree)} {m : Mapping Value}
    {all : List (String × Value)} :
    (∃ m', entryValues entries m = .ok m' ∧ m'.toList = all) ↔
      ∃ fields, all = m.toList ++ fields ∧ (all.map Prod.fst).Nodup ∧
        List.Forall₂ (fun e f => e.1.keyName? = some f.1 ∧ e.2.toValue = .ok f.2) entries fields := by
  induction entries generalizing m with
  | nil =>
    constructor
    · rintro ⟨m', hm', rfl⟩
      obtain rfl : m = m' := by simpa [entryValues] using hm'
      exact ⟨[], by simp, m.nodup_keys, .nil⟩
    · rintro ⟨fields, rfl, _, hfields⟩
      cases hfields
      exact ⟨m, by simp [entryValues], by simp⟩
  | cons e es ih =>
    constructor
    · rintro ⟨m', hm', hall⟩
      obtain ⟨f, hf, hnew, hmore⟩ := entryValues_cons_ok_iff.mp hm'
      obtain ⟨fs, hfs, hnodup, hrest⟩ := ih.mp ⟨m', hmore, hall⟩
      rw [Mapping.toList_insertNew hnew, List.append_assoc] at hfs
      exact ⟨f :: fs, hfs, hnodup, .cons hf hrest⟩
    · rintro ⟨fields, hall, hnodup, hfields⟩
      cases hfields with
      | @cons _ f _ fs hf hrest =>
        have hnew : m.isNew f.1 = true := Mapping.isNew_of_nodup (hall ▸ hnodup)
        have hfs : all = (m.insertNew f.1 f.2).toList ++ fs := by
          rw [Mapping.toList_insertNew hnew, List.append_assoc]
          exact hall
        obtain ⟨m', hm', hall'⟩ := ih.mpr ⟨fs, hfs, hnodup, hrest⟩
        exact ⟨m', entryValues_cons_ok_iff.mpr ⟨f, hf, hnew, hm'⟩, hall'⟩

theorem toValue_sequence_ok_iff {items : List Tree} {v : Value} :
    (sequence items).toValue = .ok v ↔
      ∃ values, v = .sequence values ∧ List.Forall₂ (fun t v => t.toValue = .ok v) items values := by
  rw [toValue]
  constructor
  · intro h
    cases hitems : itemValues items 0 [] with
    | error f => simp [hitems] at h
    | ok values =>
      obtain rfl : .sequence values = v := by simpa [hitems] using h
      obtain ⟨more, hmore, hvalues⟩ := itemValues_ok_iff.mp hitems
      obtain rfl : values = more := hvalues
      exact ⟨values, rfl, hmore⟩
  · rintro ⟨values, rfl, hvalues⟩
    rw [itemValues_ok_iff.mpr ⟨values, hvalues, rfl⟩]
    rfl

theorem toValue_mapping_ok_iff {entries : List (Tree × Tree)} {v : Value} :
    (mapping entries).toValue = .ok v ↔
      ∃ fields, v = .mapping fields ∧ (fields.map Prod.fst).Nodup ∧
        List.Forall₂ (fun e f => e.1.keyName? = some f.1 ∧ e.2.toValue = .ok f.2) entries fields := by
  rw [toValue]
  constructor
  · intro h
    cases hm : entryValues entries ∅ with
    | error f => simp [hm] at h
    | ok m =>
      obtain rfl : Value.ofMapping m = v := by simpa [hm] using h
      obtain ⟨fields, hall, hnodup, hfields⟩ := entryValues_ok_iff.mp ⟨m, hm, rfl⟩
      obtain rfl : m.toList = fields := hall
      exact ⟨m.toList, rfl, hnodup, hfields⟩
  · rintro ⟨fields, rfl, hnodup, hfields⟩
    have hall : fields = (∅ : Mapping Value).toList ++ fields := rfl
    obtain ⟨m, hm, rfl⟩ := entryValues_ok_iff.mpr ⟨fields, hall, hnodup, hfields⟩
    rw [hm]
    rfl

/-- The names of fields differ as the names of their entries do. -/
theorem nodup_names_iff {entries : List (Tree × Tree)} {fields : List (String × Value)}
    (h : (entries.map fun e => e.1.keyName?) = fields.map fun f => some f.1) :
    (entries.map fun e => e.1.keyName?).Nodup ↔ (fields.map Prod.fst).Nodup := by
  have hsome : (fields.map fun f => some f.1) = (fields.map Prod.fst).map some := by
    rw [List.map_map]
    rfl
  rw [h, hsome, List.nodup_map_iff fun _ _ => Option.some.inj]

/-- Conversion succeeds for the convertible trees alone, and with their values. -/
theorem toValue_ok_iff {t : Tree} {v : Value} : t.toValue = .ok v ↔ t.Convertible ∧ t.HasValue v := by
  induction t using induct generalizing v with
  | null | boolean | string =>
    rw [and_iff_right (convertible_of_isScalar rfl)]
    constructor
    · rintro ⟨⟩
      constructor
    · rintro ⟨⟩
      rfl
  | number n =>
    rw [and_iff_right (convertible_of_isScalar rfl), toValue_number]
    constructor
    · rintro ⟨⟩
      constructor
    · rintro ⟨⟩
      rfl
  | sequence items ih =>
    rw [toValue_sequence_ok_iff, convertible_sequence_iff]
    constructor
    · rintro ⟨values, rfl, hvalues⟩
      refine ⟨?_, .sequence (forall₂_imp (fun t ht v _ hv => ((ih t ht).mp hv).2) hvalues)⟩
      intro t ht
      obtain ⟨v, _, hv⟩ := exists_mem_right hvalues ht
      exact ((ih t ht).mp hv).1
    · rintro ⟨hitems, hv⟩
      cases hv with
      | sequence hvalues =>
        exact ⟨_, rfl, forall₂_imp (fun t ht v _ hv => (ih t ht).mpr ⟨hitems t ht, hv⟩) hvalues⟩
  | mapping entries ih =>
    rw [toValue_mapping_ok_iff, convertible_mapping_iff, hasValue_mapping_iff]
    constructor
    · rintro ⟨fields, rfl, hnodup, hfields⟩
      have hscalar : ∀ e ∈ entries, e.1.untagged.isScalar = true := by
        intro e he
        obtain ⟨f, _, hname, _⟩ := exists_mem_right hfields he
        exact isScalar_iff.mpr ⟨f.1, hname⟩
      have hvalues : ∀ e ∈ entries, e.2.Convertible := by
        intro e he
        obtain ⟨f, _, _, hv⟩ := exists_mem_right hfields he
        exact ((ih e he).2.mp hv).1
      have hnames := nodup_names_iff (entrywise_iff (R := fun t v => t.toValue = .ok v) |>.mp hfields).1
      exact ⟨⟨⟨hscalar, hnames.mpr hnodup⟩, hvalues⟩, fields, rfl,
        forall₂_imp (fun e he f _ hf => ⟨hf.1, ((ih e he).2.mp hf.2).2⟩) hfields⟩
    · rintro ⟨⟨⟨_, hnames⟩, hvalues⟩, fields, rfl, hfields⟩
      have hnodup := (nodup_names_iff (entrywise_iff.mp hfields).1).mp hnames
      exact ⟨fields, rfl, hnodup,
        forall₂_imp (fun e he f _ hf => ⟨hf.1, (ih e he).2.mpr ⟨hvalues e he, hf.2⟩⟩) hfields⟩
  | tagged tag t ih =>
    rw [convertible_tagged_iff]
    constructor
    · intro h
      obtain ⟨hkeys, hv⟩ := ih.mp h
      exact ⟨hkeys, .tagged tag hv⟩
    · rintro ⟨hkeys, hv⟩
      cases hv with
      | tagged _ hv => exact ih.mpr ⟨hkeys, hv⟩

end Yaml.Tree

/-- Conversion of a document is exact. It succeeds for the trees in which every mapping that is reached
has scalar keys with names of their own, and the value is then the tree with its tags dropped and its
keys named. -/
theorem conversion_exact (root : List ValueStep) (t : Yaml.Tree) :
    ((∃ v, documentValue root t = .ok v) ↔ t.Convertible) ∧
      ∀ v, documentValue root t = .ok v → t.HasValue v ∧ v.KeysDistinct := by
  have hok : ∀ v, documentValue root t = .ok v ↔ t.Convertible ∧ t.HasValue v := by
    intro v
    rw [← Yaml.Tree.toValue_ok_iff, documentValue]
    cases t.toValue <;> simp [Except.mapError]
  constructor
  · constructor
    · rintro ⟨v, hv⟩
      exact ((hok v).mp hv).1
    · intro h
      obtain ⟨v, hv⟩ := Yaml.Tree.exists_hasValue h
      exact ⟨v, (hok v).mpr ⟨h, hv⟩⟩
  · intro v hv
    exact ⟨((hok v).mp hv).2, keysDistinct_documentValue hv⟩

/-- A null key and a tagged empty text are two keys of one name. -/
example : documentValue [] (.mapping [(.null, .null), (.tagged "!t" (.string ""), .null)]) =
    .error (.badKey [] ⟨[], .duplicate ""⟩) := rfl

end ConfigModules
