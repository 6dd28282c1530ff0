import ConfigModules.Proofs.Double.Text
import ConfigModules.Proofs.FirstFault

/-! Numbers as keys. Two of them have one name exactly if they are equal as numbers, so a mapping whose keys are
numbers converts exactly if no two are equal, and the name of a number is the only text that collides
with it. -/
namespace ConfigModules

/-- Numbers have one name if and only if they are equal. -/
theorem Number.propertyKey_eq_iff {m n : Number} : m.propertyKey = n.propertyKey ↔ m.same n = true := by
  rw [propertyKey, propertyKey, Double.text_injective.eq_iff, ← Double.equal_iff]
  rfl

namespace Yaml.Tree

/-- A key, tags apart, that is a number or a text. -/
inductive PlainKey where
  | number (n : Number)
  | text (s : String)

namespace PlainKey

def tree : PlainKey → Tree
  | .number n => .number n
  | .text s => .string s

def name : PlainKey → String
  | .number n => n.propertyKey
  | .text s => s

/-- Equal numbers collide, equal texts, and a number and its own name. -/
def Collides : PlainKey → PlainKey → Prop
  | .number m, .number n => m.same n = true
  | .number n, .text s | .text s, .number n => s = n.propertyKey
  | .text s, .text t => s = t

theorem collides_iff {j k : PlainKey} : j.Collides k ↔ j.name = k.name := by
  cases j with
  | number m =>
    cases k with
    | number n => exact Number.propertyKey_eq_iff.symm
    | text s => exact eq_comm
  | text s =>
    cases k with
    | number n => exact Iff.rfl
    | text t => exact Iff.rfl

theorem keyName?_of_tree {k : Tree} {key : PlainKey} (h : k.untagged = key.tree) :
    k.keyName? = some key.name := by
  rw [keyName?, h]
  cases key <;> rfl

end PlainKey

/-- The keys of entries, tags apart. -/
def HasKeys (entries : List (Tree × Tree)) (keys : List PlainKey) : Prop :=
  (entries.map fun e => e.1.untagged) = keys.map PlainKey.tree

variable {entries : List (Tree × Tree)} {keys : List PlainKey}

theorem HasKeys.names (h : HasKeys entries keys) :
    (entries.map fun e => e.1.keyName?) = (keys.map PlainKey.name).map some := by
  induction entries generalizing keys with
  | nil =>
    obtain rfl : keys = [] := by simpa [HasKeys, eq_comm] using h
    rfl
  | cons e es ih =>
    cases keys with
    | nil => simp [HasKeys] at h
    | cons key keys =>
      obtain ⟨hkey, hkeys⟩ := List.cons.inj h
      rw [List.map_cons, PlainKey.keyName?_of_tree hkey, ih hkeys]
      rfl

/-- No two keys collide if and only if all names differ. -/
theorem HasKeys.nodup_iff (h : HasKeys entries keys) :
    (entries.map fun e => e.1.keyName?).Nodup ↔ keys.Pairwise fun j k => ¬j.Collides k := by
  rw [h.names, List.nodup_map_iff fun _ _ => Option.some.inj, List.Nodup, List.pairwise_map]
  simp only [PlainKey.collides_iff, Ne]

theorem HasKeys.convertible_keys (h : HasKeys entries keys) :
    ∀ e ∈ entries, e.1.untagged.isScalar = true := by
  intro e he
  have hname : e.1.keyName? ∈ entries.map fun e => e.1.keyName? := List.mem_map_of_mem he
  rw [h.names] at hname
  obtain ⟨name, _, hname⟩ := List.mem_map.mp hname
  exact isScalar_iff.mpr ⟨name, hname.symm⟩

theorem exists_value_iff {t : Tree} : (∃ v, t.toValue = .ok v) ↔ t.Convertible := by
  constructor
  · rintro ⟨v, hv⟩
    exact (toValue_ok_iff.mp hv).1
  · intro h
    obtain ⟨v, hv⟩ := exists_hasValue h
    exact ⟨v, toValue_ok_iff.mpr ⟨h, hv⟩⟩

/-- With values that convert, a mapping converts if and only if no two keys collide. -/
theorem HasKeys.converts_iff (h : HasKeys entries keys) (hvalues : ∀ e ∈ entries, ∃ v, e.2.toValue = .ok v) :
    (∃ v, (mapping entries).toValue = .ok v) ↔ keys.Pairwise fun j k => ¬j.Collides k := by
  rw [exists_value_iff, convertible_mapping_iff, h.nodup_iff]
  simp only [exists_value_iff] at hvalues
  constructor
  · exact fun hconverts => hconverts.1.2
  · exact fun hapart => ⟨⟨h.convertible_keys, hapart⟩, hvalues⟩

/-- The names of a mapping that reports one as a duplicate do not all differ. -/
theorem not_nodup_of_duplicate {name : String}
    (h : (mapping entries).toValue = .error ⟨[], .duplicate name⟩) :
    ¬(entries.map fun e => e.1.keyName?).Nodup := by
  obtain ⟨m, hm, _⟩ := toValue_error_iff.mp h
  rcases faultAt_mapping_iff.mp hm with ⟨last, problem, hwrong, _, hproblem⟩ |
    ⟨_, _, _, _, _, _, _, _, _, _, hunder⟩
  · cases hproblem
    exact hwrong.not_nodup
  · cases hunder

/-- Where keys have names and values convert, nothing else is reported. -/
theorem duplicate_of_fault (hnames : ∀ e ∈ entries, ∃ name, e.1.keyName? = some name)
    (hvalues : ∀ e ∈ entries, ∃ v, e.2.toValue = .ok v) {f : KeyFault}
    (h : (mapping entries).toValue = .error f) : ∃ name, f = ⟨[], .duplicate name⟩ := by
  obtain ⟨m, hm, _⟩ := toValue_error_iff.mp h
  rcases faultAt_mapping_iff.mp hm with ⟨last, problem, hwrong, _, rfl⟩ |
    ⟨_, k, t, _, _, _, he, _, hfault, _⟩
  · cases problem with
    | unsupported kind =>
      obtain ⟨e, he, hnone⟩ := hwrong.not_named
      obtain ⟨name, hname⟩ := hnames e he
      exact absurd (hname.symm.trans hnone) (Option.some_ne_none name)
    | duplicate name => exact ⟨name, rfl⟩
  · obtain ⟨v, hv⟩ := hvalues _ (List.mem_of_getElem? he)
    exact absurd hv hfault.not_converts

/-- With values that convert, a duplicate is reported if and only if two keys collide. -/
theorem HasKeys.duplicate_iff (h : HasKeys entries keys)
    (hvalues : ∀ e ∈ entries, ∃ v, e.2.toValue = .ok v) :
    (∃ name, (mapping entries).toValue = .error ⟨[], .duplicate name⟩) ↔
      ¬keys.Pairwise fun j k => ¬j.Collides k := by
  constructor
  · rintro ⟨name, hname⟩
    rw [← h.nodup_iff]
    exact not_nodup_of_duplicate hname
  · intro hcollide
    rw [← h.converts_iff hvalues] at hcollide
    cases hvalue : (mapping entries).toValue with
    | ok v => exact absurd ⟨v, hvalue⟩ hcollide
    | error f =>
      have hnames : ∀ e ∈ entries, ∃ name, e.1.keyName? = some name :=
        fun e he => isScalar_iff.mp (h.convertible_keys e he)
      obtain ⟨name, rfl⟩ := duplicate_of_fault hnames hvalues hvalue
      exact ⟨name, rfl⟩

theorem pairwise_numbers_iff {numbers : List Number} :
    ((numbers.map PlainKey.number).Pairwise fun j k => ¬j.Collides k) ↔
      numbers.Pairwise fun m n => m.same n = false := by
  simp [List.pairwise_map, PlainKey.Collides]

/-- Numbers as keys collide exactly if they are equal. Their names are the same if and only if they are; a mapping
whose keys are numbers, tags apart, converts if and only if no two of them are equal, and else it is a
duplicate that is reported, unless a value is at fault first; and among texts, the name of a number alone
collides with it. -/
theorem number_keys_collide_iff_equal :
    (∀ m n : Number, m.propertyKey = n.propertyKey ↔ m.same n = true) ∧
    (∀ (entries : List (Tree × Tree)) (numbers : List Number),
      HasKeys entries (numbers.map .number) →
      ((∀ e ∈ entries, ∃ v, e.2.toValue = .ok v) →
        ((∃ v, (mapping entries).toValue = .ok v) ↔ numbers.Pairwise fun m n => m.same n = false) ∧
        ((∃ name, (mapping entries).toValue = .error ⟨[], .duplicate name⟩) ↔
          ¬numbers.Pairwise fun m n => m.same n = false)) ∧
      (∀ name, (mapping entries).toValue = .error ⟨[], .duplicate name⟩ →
        ¬numbers.Pairwise fun m n => m.same n = false) ∧
      ∀ (root : List ValueStep) (t : Tree) (v : Value), documentValue root t = .ok v →
        t.Reaches (mapping entries) → numbers.Pairwise fun m n => m.same n = false) ∧
    ∀ (entries : List (Tree × Tree)) (keys : List PlainKey), HasKeys entries keys →
      (∀ e ∈ entries, ∃ v, e.2.toValue = .ok v) →
      ((∃ v, (mapping entries).toValue = .ok v) ↔ keys.Pairwise fun j k => ¬j.Collides k) ∧
      ((∃ name, (mapping entries).toValue = .error ⟨[], .duplicate name⟩) ↔
        ¬keys.Pairwise fun j k => ¬j.Collides k) := by
  refine ⟨fun m n => Number.propertyKey_eq_iff, ?_, ?_⟩
  · intro entries numbers h
    rw [← pairwise_numbers_iff]
    refine ⟨fun hvalues => ⟨h.converts_iff hvalues, h.duplicate_iff hvalues⟩, ?_, ?_⟩
    · intro name hname
      rw [← h.nodup_iff]
      exact not_nodup_of_duplicate hname
    · intro root t v hv hreach
      rw [← h.nodup_iff]
      have hconverts := (toValue_ok_iff.mp (documentValue_ok_iff.mp hv)).1
      exact (hconverts entries hreach).2
  · intro entries keys h hvalues
    exact ⟨h.converts_iff hvalues, h.duplicate_iff hvalues⟩

/-- Two integers beyond 2^53 that round alike, one of them tagged, collide; a number and a text that is not
its name do not. -/
theorem rounded_integers_collide :
    (∃ name, (mapping [(number (.unsigned 9007199254740992), null),
      (tagged "!t" (number (.unsigned 9007199254740993)), null)]).toValue =
        .error ⟨[], .duplicate name⟩) ∧
    ∃ v, (mapping [(number (.unsigned 1), null), (string "1.0", null)]).toValue = .ok v := by
  obtain ⟨_, hnumbers, hmixed⟩ := number_keys_collide_iff_equal
  constructor
  · have hkeys := hnumbers [(number (.unsigned 9007199254740992), null),
      (tagged "!t" (number (.unsigned 9007199254740993)), null)]
      [.unsigned 9007199254740992, .unsigned 9007199254740993] rfl
    have hsame : Number.same (.unsigned 9007199254740992) (.unsigned 9007199254740993) = true := by
      decide +kernel
    refine (hkeys.1 ?_).2.mpr ?_
    · simp [toValue]
    · simp [hsame]
  · have hname : "1.0" ≠ Number.propertyKey (.unsigned 1) := by decide +kernel
    refine (hmixed [(number (.unsigned 1), null), (string "1.0", null)]
      [.number (.unsigned 1), .text "1.0"] rfl ?_).1.mpr ?_
    · simp [toValue]
    · simpa [PlainKey.Collides] using hname

end Yaml.Tree

end ConfigModules
