import ConfigModules.Yaml.Tree
import ConfigModules.Proofs.Related
import Mathlib.Data.List.Pairwise
import Mathlib.Tactic.SplitIfs

/-! Trees as keys. Being the same is reflexive and transitive; it is symmetric for trees whose mappings
have distinct keys, which all trees of documents are. -/
namespace ConfigModules

namespace Double

theorem unsignedZero_finite (n : Bool) (r : Fin finiteCount) :
    (finite n r).unsignedZero = finite (n && !decide (r.val = 0)) r := by
  rw [unsignedZero]
  split_ifs with hr
  · have hzero : r = ⟨0, by decide⟩ := Fin.ext hr
    simp [hzero, zero, signedZero]
  · simp [hr]

/-- Doubles are equal as keys are, a NaN to a NaN, when at most the sign of a zero tells them apart. -/
theorem equal_iff {x y : Double} :
    (x.numericallyEqual y || (x.isNaN && y.isNaN)) = true ↔ x.unsignedZero = y.unsignedZero := by
  have hnan : nan.unsignedZero = nan := rfl
  have hinfinite : ∀ n, (infinite n).unsignedZero = infinite n := fun _ => rfl
  cases x with
  | nan => cases y <;> simp [numericallyEqual, isNaN, unsignedZero_finite, hnan, hinfinite]
  | infinite m => cases y <;> simp [numericallyEqual, isNaN, unsignedZero_finite, hnan, hinfinite]
  | finite m r =>
    cases y with
    | nan => simp [numericallyEqual, isNaN, unsignedZero_finite, hnan]
    | infinite n => simp [numericallyEqual, isNaN, unsignedZero_finite, hinfinite]
    | finite n s =>
      simp only [numericallyEqual, isNaN, unsignedZero_finite, finite.injEq]
      by_cases hrs : r = s
      · subst hrs
        cases m <;> cases n <;> simp
      · simp [hrs]

end Double

namespace Yaml.Tree

/-- Induction over a tree, its keys included. -/
@[elab_as_elim]
theorem induct {motive : Tree → Prop} (null : motive .null) (boolean : ∀ b, motive (.boolean b))
    (number : ∀ n, motive (.number n)) (string : ∀ s, motive (.string s))
    (sequence : ∀ items, (∀ t ∈ items, motive t) → motive (.sequence items))
    (mapping : ∀ entries, (∀ e ∈ entries, motive e.1 ∧ motive e.2) → motive (.mapping entries))
    (tagged : ∀ tag t, motive t → motive (.tagged tag t)) (t : Tree) : motive t :=
  Tree.rec (motive_1 := motive) (motive_2 := fun items => ∀ t ∈ items, motive t)
    (motive_3 := fun entries => ∀ e ∈ entries, motive e.1 ∧ motive e.2)
    (motive_4 := fun e => motive e.1 ∧ motive e.2)
    null boolean number string sequence mapping tagged
    (List.forall_mem_nil _) (fun _ _ ht hts => List.forall_mem_cons.mpr ⟨ht, hts⟩)
    (List.forall_mem_nil _) (fun _ _ he hes => List.forall_mem_cons.mpr ⟨he, hes⟩)
    (fun _ _ hk hv => ⟨hk, hv⟩) t

/-- The parts of a tree that become parts of its value: keys are none, and tags do not stand between. -/
inductive Reaches : Tree → Tree → Prop
  | here (t : Tree) : Reaches t t
  | item {items : List Tree} {t m : Tree} : t ∈ items → Reaches t m → Reaches (.sequence items) m
  | value {entries : List (Tree × Tree)} {e : Tree × Tree} {m : Tree} :
      e ∈ entries → Reaches e.2 m → Reaches (.mapping entries) m
  | content {tag : String} {t m : Tree} : Reaches t m → Reaches (.tagged tag t) m

/-! ## The same key -/

/-- A number as a key, where zero has no sign. -/
def keyNumber : Number → Number
  | .real x => .real x.unsignedZero
  | n => n

theorem sameNumber_iff {m n : Number} : sameNumber m n = true ↔ keyNumber m = keyNumber n := by
  cases m <;> cases n <;> simp [sameNumber, keyNumber, ← Double.equal_iff]

section

attribute [local simp] same sameItems allIn

theorem sameItems_iff {as bs : List Tree} :
    sameItems as bs = true ↔ List.Forall₂ (fun a b => a.same b = true) as bs := by
  induction as generalizing bs with
  | nil => cases bs <;> simp
  | cons a as ih => cases bs <;> simp [ih]

theorem allIn_iff {as bs : List (Tree × Tree)} :
    allIn as bs = true ↔ ∀ a ∈ as, ∃ b ∈ bs, a.1.same b.1 = true ∧ a.2.same b.2 = true := by
  induction as with
  | nil => simp
  | cons a as ih => simp [ih]

theorem same_null_iff {t : Tree} : null.same t = true ↔ t = null := by
  cases t <;> simp

theorem same_boolean_iff {b : Bool} {t : Tree} : (boolean b).same t = true ↔ t = boolean b := by
  cases t <;> simp
  exact eq_comm

theorem same_number_iff {n : Number} {t : Tree} :
    (number n).same t = true ↔ ∃ m, t = number m ∧ keyNumber n = keyNumber m := by
  cases t <;> simp [sameNumber_iff]

theorem same_string_iff {s : String} {t : Tree} : (string s).same t = true ↔ t = string s := by
  cases t <;> simp
  exact eq_comm

theorem same_sequence_iff {as : List Tree} {t : Tree} :
    (sequence as).same t = true ↔
      ∃ bs, t = sequence bs ∧ List.Forall₂ (fun a b => a.same b = true) as bs := by
  cases t <;> simp [sameItems_iff]

theorem same_mapping_iff {as : List (Tree × Tree)} {t : Tree} :
    (mapping as).same t = true ↔ ∃ bs, t = mapping bs ∧ as.length = bs.length ∧
      ∀ a ∈ as, ∃ b ∈ bs, a.1.same b.1 = true ∧ a.2.same b.2 = true := by
  cases t <;> simp [allIn_iff]

theorem same_tagged_iff {tag : String} {a t : Tree} :
    (tagged tag a).same t = true ↔
      ∃ tag' b, t = tagged tag' b ∧ bareTag tag = bareTag tag' ∧ a.same b = true := by
  cases t <;> simp

end

@[simp] theorem same_refl (t : Tree) : t.same t = true := by
  induction t using induct with
  | null => exact same_null_iff.mpr rfl
  | boolean b => exact same_boolean_iff.mpr rfl
  | number n => exact same_number_iff.mpr ⟨n, rfl, rfl⟩
  | string s => exact same_string_iff.mpr rfl
  | sequence items ih => exact same_sequence_iff.mpr ⟨items, rfl, List.forall₂_same.mpr ih⟩
  | mapping entries ih =>
    exact same_mapping_iff.mpr ⟨entries, rfl, rfl, fun e he => ⟨e, he, ih e he⟩⟩
  | tagged tag t ih => exact same_tagged_iff.mpr ⟨tag, t, rfl, rfl, ih⟩

theorem same_trans {a b c : Tree} (hab : a.same b = true) (hbc : b.same c = true) :
    a.same c = true := by
  induction a using induct generalizing b c with
  | null => exact same_null_iff.mp hab ▸ hbc
  | boolean b => exact same_boolean_iff.mp hab ▸ hbc
  | number n =>
    obtain ⟨m, rfl, hn⟩ := same_number_iff.mp hab
    obtain ⟨l, rfl, hm⟩ := same_number_iff.mp hbc
    exact same_number_iff.mpr ⟨l, rfl, hn.trans hm⟩
  | string s => exact same_string_iff.mp hab ▸ hbc
  | sequence as ih =>
    obtain ⟨bs, rfl, has⟩ := same_sequence_iff.mp hab
    obtain ⟨cs, rfl, hbs⟩ := same_sequence_iff.mp hbc
    have htrans : ∀ a ∈ as, ∀ b c, a.same b = true → b.same c = true → a.same c = true :=
      fun a ha _ _ => ih a ha
    exact same_sequence_iff.mpr ⟨cs, rfl, forall₂_trans htrans has hbs⟩
  | mapping as ih =>
    obtain ⟨bs, rfl, hlen, has⟩ := same_mapping_iff.mp hab
    obtain ⟨cs, rfl, hlen', hbs⟩ := same_mapping_iff.mp hbc
    refine same_mapping_iff.mpr ⟨cs, rfl, hlen.trans hlen', ?_⟩
    intro a ha
    obtain ⟨b, hb, hkey, hvalue⟩ := has a ha
    obtain ⟨c, hc, hkey', hvalue'⟩ := hbs b hb
    exact ⟨c, hc, (ih a ha).1 hkey hkey', (ih a ha).2 hvalue hvalue'⟩
  | tagged tag a ih =>
    obtain ⟨tag', b, rfl, htag, ha⟩ := same_tagged_iff.mp hab
    obtain ⟨tag'', c, rfl, htag', hb⟩ := same_tagged_iff.mp hbc
    exact same_tagged_iff.mpr ⟨tag'', c, rfl, htag.trans htag', ih ha hb⟩

/-! ## Distinct keys -/

/-- Two entries whose keys are not the same. -/
def Apart {α : Type} (e f : Tree × α) : Prop := e.1.same f.1 = false ∧ f.1.same e.1 = false

theorem Apart.symm {α : Type} {e f : Tree × α} (h : Apart e f) : Apart f e := And.symm h

instance {α : Type} : Std.Symm (@Apart α) := ⟨fun _ _ => Apart.symm⟩

/-- No mapping in a tree, in its keys or its values, has two keys that are the same. -/
inductive KeysDistinct : Tree → Prop
  | null : KeysDistinct .null
  | boolean (b : Bool) : KeysDistinct (.boolean b)
  | number (n : Number) : KeysDistinct (.number n)
  | string (s : String) : KeysDistinct (.string s)
  | sequence {items : List Tree} : (∀ t ∈ items, KeysDistinct t) → KeysDistinct (.sequence items)
  | mapping {entries : List (Tree × Tree)} :
      entries.Pairwise Apart → (∀ e ∈ entries, KeysDistinct e.1) →
      (∀ e ∈ entries, KeysDistinct e.2) → KeysDistinct (.mapping entries)
  | tagged (tag : String) {t : Tree} : KeysDistinct t → KeysDistinct (.tagged tag t)

theorem same_symm {a b : Tree} (ha : a.KeysDistinct) (hb : b.KeysDistinct) (h : a.same b = true) :
    b.same a = true := by
  induction a using induct generalizing b with
  | null => exact same_null_iff.mp h ▸ same_refl _
  | boolean => exact same_boolean_iff.mp h ▸ same_refl _
  | number n =>
    obtain ⟨m, rfl, hn⟩ := same_number_iff.mp h
    exact same_number_iff.mpr ⟨n, rfl, hn.symm⟩
  | string => exact same_string_iff.mp h ▸ same_refl _
  | sequence as ih =>
    obtain ⟨bs, rfl, has⟩ := same_sequence_iff.mp h
    cases ha with
    | sequence ha =>
      cases hb with
      | sequence hb =>
        refine same_sequence_iff.mpr ⟨as, rfl, forall₂_imp ?_ has.flip⟩
        intro b hmemb a hmem hab
        exact ih a hmem (ha a hmem) (hb b hmemb) hab
  | mapping as ih =>
    obtain ⟨bs, rfl, hlen, has⟩ := same_mapping_iff.mp h
    cases ha with
    | mapping hapart hka hva =>
      cases hb with
      | mapping _ hkb hvb =>
        -- two entries with the same partner would have the same key
        have halone : as.Pairwise fun a a' => ∀ b ∈ bs,
            (a.1.same b.1 = true ∧ a.2.same b.2 = true) →
              ¬(a'.1.same b.1 = true ∧ a'.2.same b.2 = true) := by
          refine hapart.imp_of_mem ?_
          intro a a' hmem _ hnot b hmemb hab hab'
          have hba : b.1.same a.1 = true := (ih a hmem).1 (hka a hmem) (hkb b hmemb) hab.1
          exact Bool.eq_false_iff.mp hnot.2 (same_trans hab'.1 hba)
        refine same_mapping_iff.mpr ⟨as, rfl, hlen.symm, ?_⟩
        intro b hmemb
        obtain ⟨a, hmem, hkey, hvalue⟩ := exists_related hlen has halone b hmemb
        exact ⟨a, hmem, (ih a hmem).1 (hka a hmem) (hkb b hmemb) hkey,
          (ih a hmem).2 (hva a hmem) (hvb b hmemb) hvalue⟩
  | tagged tag a ih =>
    obtain ⟨tag', b, rfl, htag, hab⟩ := same_tagged_iff.mp h
    cases ha with
    | tagged _ ha =>
      cases hb with
      | tagged _ hb => exact same_tagged_iff.mpr ⟨tag, a, rfl, htag.symm, ih ha hb hab⟩

/-! ## Entries -/

/-- Entries of which no two have the same key. -/
structure EntriesDistinct {α : Type} (entries : List (Tree × α)) : Prop where
  apart : entries.Pairwise Apart
  keys : ∀ e ∈ entries, e.1.KeysDistinct

/-- What the first entry with a key holds. -/
def valueAt? {α : Type} (k : Tree) (entries : List (Tree × α)) : Option α :=
  (entries.find? fun e => k.same e.1).map Prod.snd

section Entries

variable {α β : Type} {k : Tree} {entries : List (Tree × α)}

@[simp] theorem valueAt?_nil : valueAt? k ([] : List (Tree × α)) = none := rfl

theorem valueAt?_cons (e : Tree × α) (entries : List (Tree × α)) :
    valueAt? k (e :: entries) = if k.same e.1 then some e.2 else valueAt? k entries := by
  rw [valueAt?, List.find?_cons]
  cases k.same e.1 <;> rfl

theorem valueAt?_append (entries more : List (Tree × α)) :
    valueAt? k (entries ++ more) = (valueAt? k entries).or (valueAt? k more) := by
  rw [valueAt?, List.find?_append, Option.map_or]
  rfl

theorem valueAt?_map (f : α → β) (entries : List (Tree × α)) :
    valueAt? k (entries.map fun e => (e.1, f e.2)) = (valueAt? k entries).map f := by
  rw [valueAt?, List.find?_map, Option.map_map, valueAt?, Option.map_map]
  rfl

theorem valueAt?_eq_none_iff : valueAt? k entries = none ↔ ∀ e ∈ entries, k.same e.1 = false := by
  simp [valueAt?]

theorem exists_of_valueAt? {v : α} (h : valueAt? k entries = some v) :
    ∃ e ∈ entries, k.same e.1 = true ∧ e.2 = v := by
  obtain ⟨e, he, hv⟩ := Option.map_eq_some_iff.mp h
  have hkey : k.same e.1 = true := List.find?_some (p := fun (e : Tree × α) => k.same e.1) he
  exact ⟨e, List.mem_of_find?_eq_some he, hkey, hv⟩

/-- Where no two entries have the same key, the entries with a key decide what is found. -/
theorem valueAt?_eq_some_iff (h : EntriesDistinct entries) (hk : k.KeysDistinct) {v : α} :
    valueAt? k entries = some v ↔ ∃ e ∈ entries, k.same e.1 = true ∧ e.2 = v := by
  refine ⟨exists_of_valueAt?, ?_⟩
  rintro ⟨e, he, hkey, rfl⟩
  cases hfound : valueAt? k entries with
  | none => exact absurd hkey (Bool.eq_false_iff.mp (valueAt?_eq_none_iff.mp hfound e he))
  | some v =>
    obtain ⟨f, hf, hkey', rfl⟩ := exists_of_valueAt? hfound
    by_cases hef : e = f
    · rw [hef]
    · have hapart : Apart e f := h.apart.forall he hf hef
      have hsame : e.1.same f.1 = true := same_trans (same_symm hk (h.keys e he) hkey) hkey'
      exact absurd hsame (Bool.eq_false_iff.mp hapart.1)

theorem valueAt?_of_mem (h : EntriesDistinct entries) {e : Tree × α} (he : e ∈ entries) :
    valueAt? e.1 entries = some e.2 :=
  (valueAt?_eq_some_iff h (h.keys e he)).mpr ⟨e, he, same_refl _, rfl⟩

theorem EntriesDistinct.perm {more : List (Tree × α)} (h : EntriesDistinct entries)
    (hperm : entries.Perm more) : EntriesDistinct more :=
  ⟨(hperm.pairwise_iff Apart.symm).mp h.apart, fun e he => h.keys e (hperm.mem_iff.mpr he)⟩

theorem EntriesDistinct.sublist {fewer : List (Tree × α)} (h : EntriesDistinct entries)
    (hsub : fewer.Sublist entries) : EntriesDistinct fewer :=
  ⟨h.apart.sublist hsub, fun e he => h.keys e (hsub.mem he)⟩

theorem EntriesDistinct.map (h : EntriesDistinct entries) (f : Tree × α → β) :
    EntriesDistinct (entries.map fun e => (e.1, f e)) := by
  constructor
  · rw [List.pairwise_map]
    exact h.apart
  · intro e he
    obtain ⟨e', he', rfl⟩ := List.mem_map.mp he
    exact h.keys e' he'

theorem valueAt?_perm {more : List (Tree × α)} (h : EntriesDistinct entries) (hk : k.KeysDistinct)
    (hperm : entries.Perm more) : valueAt? k more = valueAt? k entries := by
  apply Option.ext
  intro v
  rw [valueAt?_eq_some_iff h hk, valueAt?_eq_some_iff (h.perm hperm) hk]
  simp only [hperm.mem_iff]

end Entries

theorem hasKey_eq (k : Tree) (entries : List (Tree × Tree)) :
    hasKey k entries = (valueAt? k entries).isSome := by
  rw [valueAt?, Option.isSome_map, List.isSome_find?]
  rfl

theorem hasKey_iff {k : Tree} {entries : List (Tree × Tree)} :
    hasKey k entries = true ↔ ∃ e ∈ entries, k.same e.1 = true :=
  List.any_eq_true

theorem hasKey_of_mem {entries : List (Tree × Tree)} {e : Tree × Tree} (he : e ∈ entries) :
    hasKey e.1 entries = true :=
  hasKey_iff.mpr ⟨e, he, same_refl e.1⟩

theorem KeysDistinct.entries {entries : List (Tree × Tree)} (h : (Tree.mapping entries).KeysDistinct) :
    EntriesDistinct entries := by
  cases h with
  | mapping hapart hkeys _ => exact ⟨hapart, hkeys⟩

theorem KeysDistinct.value {entries : List (Tree × Tree)} (h : (Tree.mapping entries).KeysDistinct)
    {e : Tree × Tree} (he : e ∈ entries) : e.2.KeysDistinct := by
  cases h with
  | mapping _ _ hvalues => exact hvalues e he

end Yaml.Tree
end ConfigModules
