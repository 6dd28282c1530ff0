import ConfigModules.Proofs.FaultPath

/-! The fault that conversion reports. A traversal takes the elements of a sequence and the entries of a mapping
in order; at an entry the kind of the key is looked at first, then the value is converted, then the name is
looked for among the entries before. Of all faults in a tree the one that is met first is reported, with the
steps to the mapping that holds the key. -/
namespace ConfigModules

namespace Yaml.Tree

/-! ## Moments of a traversal -/

/-- What is done at an entry. An element of a sequence is a value only. -/
inductive Stage where
  | key
  | value
  | name
deriving DecidableEq, Repr

def Stage.rank : Stage → Nat
  | .key => 0
  | .value => 1
  | .name => 2

/-- The elements and entries that a traversal is in, the outermost first, with the stage at each. -/
abbrev Moment := List (Nat × Stage)

/-- At one node, what comes earlier: a smaller index, and at one index an earlier stage. -/
def Sooner (a b : Nat × Stage) : Prop := a.1 < b.1 ∨ a.1 = b.1 ∧ a.2.rank < b.2.rank

/-- The order of a traversal: the outermost node where two moments differ decides. -/
def Earlier : Moment → Moment → Prop := List.Lex Sooner

theorem sooner_of_stage {i : Nat} {stage stage' : Stage} (h : stage.rank < stage'.rank) :
    Sooner (i, stage) (i, stage') := .inr ⟨rfl, h⟩

theorem not_sooner_self (a : Nat × Stage) : ¬Sooner a a := by
  rintro (h | ⟨_, h⟩)
  · exact Nat.lt_irrefl _ h
  · exact Nat.lt_irrefl _ h

theorem Sooner.asymm {a b : Nat × Stage} (h : Sooner a b) : ¬Sooner b a := by
  unfold Sooner at *
  omega

theorem Earlier.asymm {m m' : Moment} (h : Earlier m m') : ¬Earlier m' m := by
  induction h with
  | nil => exact fun h' => nomatch h'
  | cons _ ih =>
    intro h'
    cases h' with
    | cons h' => exact ih h'
    | rel h' => exact not_sooner_self _ h'
  | rel h =>
    intro h'
    cases h' with
    | cons _ => exact not_sooner_self _ h
    | rel h' => exact h.asymm h'

/-! ## Faults at moments -/

/-- The kind of a tree that is no scalar. -/
def keyKind? : Tree → Option KeyKind
  | .sequence _ => some .sequence
  | .mapping _ => some .mapping
  | _ => none

/-- In a traversal of the tree, the way to one of its mappings and the steps to it: a step for every element,
and for every entry under its name. Tags are passed without a step. -/
inductive Leads : Tree → Moment → List ValueStep → List (Tree × Tree) → Prop
  | here (entries : List (Tree × Tree)) : Leads (.mapping entries) [] [] entries
  | item {items : List Tree} {i : Nat} {t : Tree} {way : Moment} {steps : List ValueStep}
      {entries : List (Tree × Tree)} :
      items[i]? = some t → Leads t way steps entries →
      Leads (.sequence items) ((i, .value) :: way) (.item i :: steps) entries
  | field {outer : List (Tree × Tree)} {i : Nat} {k t : Tree} {name : String} {way : Moment}
      {steps : List ValueStep} {entries : List (Tree × Tree)} :
      outer[i]? = some (k, t) → k.keyName? = some name → Leads t way steps entries →
      Leads (.mapping outer) ((i, .value) :: way) (.field name :: steps) entries
  | content {tag : String} {t : Tree} {way : Moment} {steps : List ValueStep}
      {entries : List (Tree × Tree)} :
      Leads t way steps entries → Leads (.tagged tag t) way steps entries

/-- What is wrong with a key among the entries of its mapping: tags apart it is no scalar, or an entry before
has its name. -/
inductive WrongKey (entries : List (Tree × Tree)) : Nat × Stage → KeyProblem → Prop
  | unsupported {i : Nat} {k t : Tree} {kind : KeyKind} :
      entries[i]? = some (k, t) → k.untagged.keyKind? = some kind →
      WrongKey entries (i, .key) (.unsupported kind)
  | duplicate {i j : Nat} {k t k' t' : Tree} {name : String} :
      entries[i]? = some (k, t) → k.keyName? = some name →
      j < i → entries[j]? = some (k', t') → k'.keyName? = some name →
      WrongKey entries (i, .name) (.duplicate name)

/-- A fault that a traversal meets at a moment. Its steps lead to the mapping that holds the key. -/
inductive FaultAt (t : Tree) : Moment → KeyFault → Prop
  | intro {way : Moment} {steps : List ValueStep} {entries : List (Tree × Tree)} {last : Nat × Stage}
      {problem : KeyProblem} :
      Leads t way steps entries → WrongKey entries last problem → FaultAt t (way ++ [last]) ⟨steps, problem⟩

/-- The fault that is met before all others. -/
def FirstFault (t : Tree) (f : KeyFault) : Prop :=
  ∃ m, t.FaultAt m f ∧ ∀ m' f', t.FaultAt m' f' → m = m' ∨ Earlier m m'

theorem propertyName_error_iff {k : Tree} {problem : KeyProblem} :
    k.propertyName = .error problem ↔ ∃ kind, k.untagged.keyKind? = some kind ∧ problem = .unsupported kind := by
  induction k using induct with
  | tagged tag k ih => exact ih
  | _ => simp [propertyName, untagged, keyKind?, eq_comm]

theorem keyName?_eq_none_iff {k : Tree} : k.keyName? = none ↔ ∃ kind, k.untagged.keyKind? = some kind := by
  induction k using induct with
  | tagged tag k ih => exact ih
  | boolean b => cases b <;> simp [keyName?, untagged, scalarName?, keyKind?]
  | _ => simp [keyName?, untagged, scalarName?, keyKind?]

variable {t : Tree} {m : Moment} {f : KeyFault}

theorem faultAt_sequence_iff {items : List Tree} :
    (sequence items).FaultAt m f ↔ ∃ i t m' f', items[i]? = some t ∧ t.FaultAt m' f' ∧
      m = (i, .value) :: m' ∧ f = f'.under (.item i) := by
  constructor
  · rintro ⟨hway, hwrong⟩
    cases hway with
    | item ht hway => exact ⟨_, _, _, _, ht, ⟨hway, hwrong⟩, rfl, rfl⟩
  · rintro ⟨i, t, _, _, ht, ⟨hway, hwrong⟩, rfl, rfl⟩
    exact .intro (.item ht hway) hwrong

theorem faultAt_mapping_iff {entries : List (Tree × Tree)} :
    (mapping entries).FaultAt m f ↔
      (∃ last problem, WrongKey entries last problem ∧ m = [last] ∧ f = ⟨[], problem⟩) ∨
        ∃ i k t name m' f', entries[i]? = some (k, t) ∧ k.keyName? = some name ∧ t.FaultAt m' f' ∧
          m = (i, .value) :: m' ∧ f = f'.under (.field name) := by
  constructor
  · rintro ⟨hway, hwrong⟩
    cases hway with
    | here => exact .inl ⟨_, _, hwrong, rfl, rfl⟩
    | field he hname hway => exact .inr ⟨_, _, _, _, _, _, he, hname, ⟨hway, hwrong⟩, rfl, rfl⟩
  · rintro (⟨last, problem, hwrong, rfl, rfl⟩ | ⟨i, k, t, name, _, _, he, hname, ⟨hway, hwrong⟩, rfl, rfl⟩)
    · exact .intro (.here entries) hwrong
    · exact .intro (.field he hname hway) hwrong

theorem faultAt_tagged_iff {tag : String} : (tagged tag t).FaultAt m f ↔ t.FaultAt m f := by
  constructor
  · rintro ⟨hway, hwrong⟩
    cases hway with
    | content hway => exact .intro hway hwrong
  · rintro ⟨hway, hwrong⟩
    exact .intro (.content hway) hwrong

/-! ## One fault at a moment, and none in a tree that converts -/

theorem WrongKey.unique {entries : List (Tree × Tree)} {at_ : Nat × Stage} {problem problem' : KeyProblem}
    (h : WrongKey entries at_ problem) (h' : WrongKey entries at_ problem') : problem = problem' := by
  cases h with
  | unsupported he hkind =>
    cases h' with
    | unsupported he' hkind' =>
      rw [he, Option.some.injEq, Prod.mk.injEq] at he'
      rw [he'.1, hkind', Option.some.injEq] at hkind
      rw [hkind]
  | duplicate he hname =>
    cases h' with
    | duplicate he' hname' =>
      rw [he, Option.some.injEq, Prod.mk.injEq] at he'
      rw [he'.1, hname', Option.some.injEq] at hname
      rw [hname]

theorem FaultAt.unique (h : t.FaultAt m f) {f' : KeyFault} (h' : t.FaultAt m f') : f = f' := by
  induction t using induct generalizing m f f' with
  | sequence items ih =>
    obtain ⟨i, t, m₁, f₁, ht, hf, rfl, rfl⟩ := faultAt_sequence_iff.mp h
    obtain ⟨i', t', m₂, f₂, ht', hf', hm, rfl⟩ := faultAt_sequence_iff.mp h'
    obtain ⟨hi, rfl⟩ := List.cons.inj hm
    obtain rfl : i = i' := congrArg Prod.fst hi
    obtain rfl : t = t' := Option.some.inj (ht.symm.trans ht')
    rw [ih t (List.mem_of_getElem? ht) hf hf']
  | mapping entries ih =>
    rcases faultAt_mapping_iff.mp h with ⟨last, problem, hwrong, rfl, rfl⟩ |
      ⟨i, k, t, name, m₁, f₁, he, hname, hf, rfl, rfl⟩
    · rcases faultAt_mapping_iff.mp h' with ⟨last', problem', hwrong', hm, rfl⟩ |
        ⟨i, k, t, name, m₂, f₂, he, hname, hf, hm, rfl⟩
      · obtain rfl : last = last' := List.singleton_inj.mp hm
        rw [hwrong.unique hwrong']
      · obtain ⟨rfl, _⟩ := List.cons.inj hm
        cases hwrong
    · rcases faultAt_mapping_iff.mp h' with ⟨last', problem', hwrong', hm, rfl⟩ |
        ⟨i', k', t', name', m₂, f₂, he', hname', hf', hm, rfl⟩
      · obtain ⟨rfl, _⟩ := List.cons.inj hm
        cases hwrong'
      · obtain ⟨hi, rfl⟩ := List.cons.inj hm
        obtain rfl : i = i' := congrArg Prod.fst hi
        obtain ⟨rfl, rfl⟩ : k = k' ∧ t = t' := by simpa using he.symm.trans he'
        obtain rfl : name = name' := Option.some.inj (hname.symm.trans hname')
        rw [(ih _ (List.mem_of_getElem? he)).2 hf hf']
  | tagged tag t ih => exact ih (faultAt_tagged_iff.mp h) (faultAt_tagged_iff.mp h')
  | null | boolean | number | string =>
    obtain ⟨hway, _⟩ := h
    cases hway

theorem FirstFault.unique (h : t.FirstFault f) {f' : KeyFault} (h' : t.FirstFault f') : f = f' := by
  obtain ⟨m, hm, hfirst⟩ := h
  obtain ⟨m', hm', hfirst'⟩ := h'
  rcases hfirst m' f' hm' with rfl | hearlier
  · exact hm.unique hm'
  · rcases hfirst' m f hm with rfl | hlater
    · exact hm.unique hm'
    · exact absurd hlater hearlier.asymm

theorem Leads.reaches {way : Moment} {steps : List ValueStep} {entries : List (Tree × Tree)}
    (h : t.Leads way steps entries) : t.Reaches (.mapping entries) := by
  induction h with
  | here entries => exact .here _
  | item ht _ ih => exact .item (List.mem_of_getElem? ht) ih
  | field he _ _ ih => exact .value (List.mem_of_getElem? he) ih
  | content _ ih => exact .content ih

theorem WrongKey.not_nodup {entries : List (Tree × Tree)} {last : Nat × Stage} {name : String}
    (h : WrongKey entries last (.duplicate name)) : ¬(entries.map fun e => e.1.keyName?).Nodup := by
  intro hnodup
  cases h with
  | @duplicate i j k t k' t' _ he hname hlt he' hname' =>
    have hsame : (entries.map fun e => e.1.keyName?)[j]? = (entries.map fun e => e.1.keyName?)[i]? := by
      rw [List.getElem?_map, List.getElem?_map, he, he', Option.map_some, Option.map_some, hname, hname']
    have hinside : i < (entries.map fun e => e.1.keyName?).length := by
      rw [List.length_map]
      exact (List.getElem?_eq_some_iff.mp he).1
    exact List.nodup_iff_getElem?_ne_getElem?.mp hnodup j i hlt hinside hsame

theorem WrongKey.not_named {entries : List (Tree × Tree)} {last : Nat × Stage} {kind : KeyKind}
    (h : WrongKey entries last (.unsupported kind)) : ∃ e ∈ entries, e.1.keyName? = none := by
  cases h with
  | unsupported he hkind => exact ⟨_, List.mem_of_getElem? he, keyName?_eq_none_iff.mpr ⟨kind, hkind⟩⟩

theorem FaultAt.not_convertible (h : t.FaultAt m f) : ¬t.Convertible := by
  intro hconverts
  cases h with
  | @intro _ _ _ _ problem hway hwrong =>
    obtain ⟨hscalar, hnodup⟩ := hconverts _ hway.reaches
    cases problem with
    | unsupported kind =>
      obtain ⟨e, he, hnone⟩ := hwrong.not_named
      obtain ⟨name, hname⟩ := isScalar_iff.mp (hscalar e he)
      exact absurd (hname.symm.trans hnone) (Option.some_ne_none name)
    | duplicate name => exact hwrong.not_nodup hnodup

/-! ## Where conversion stops -/

theorem itemValues_stops {items : List Tree} {i : Nat} {done : List Value}
    (h : itemValues items i done = .error f) :
    ∃ before t after f', items = before ++ t :: after ∧ (∀ b ∈ before, ∃ v, b.toValue = .ok v) ∧
      t.toValue = .error f' ∧ f = f'.under (.item (i + before.length)) := by
  induction items generalizing i done with
  | nil => cases h
  | cons t ts ih =>
    rw [itemValues] at h
    cases ht : t.toValue with
    | error f' =>
      obtain rfl : f'.under (.item i) = f := by simpa [ht] using h
      exact ⟨[], t, ts, f', rfl, List.forall_mem_nil _, ht, rfl⟩
    | ok v =>
      obtain ⟨before, u, after, f', rfl, hbefore, hu, rfl⟩ := ih (by simpa [ht] using h)
      refine ⟨t :: before, u, after, f', rfl, List.forall_mem_cons.mpr ⟨⟨v, ht⟩, hbefore⟩, hu, ?_⟩
      rw [List.length_cons, Nat.add_right_comm, Nat.add_assoc]

/-- What stops the adding of an entry to a mapping, in the order of the looks that are taken. -/
inductive Stops (m : Mapping Value) (e : Tree × Tree) : KeyFault → Prop
  | key {problem : KeyProblem} : e.1.propertyName = .error problem → Stops m e ⟨[], problem⟩
  | value {name : String} {f : KeyFault} :
      e.1.keyName? = some name → e.2.toValue = .error f → Stops m e (f.under (.field name))
  | name {name : String} {v : Value} :
      e.1.keyName? = some name → e.2.toValue = .ok v → name ∈ m.keys → Stops m e ⟨[], .duplicate name⟩

theorem entryValues_stops {entries : List (Tree × Tree)} {m : Mapping Value}
    (h : entryValues entries m = .error f) :
    ∃ before e after m', entries = before ++ e :: after ∧ entryValues before m = .ok m' ∧ Stops m' e f := by
  induction entries generalizing m with
  | nil => cases h
  | cons e es ih =>
    obtain ⟨k, t⟩ := e
    rw [entryValues] at h
    cases hk : k.propertyName with
    | error problem =>
      obtain rfl : ⟨[], problem⟩ = f := by simpa [hk] using h
      exact ⟨[], (k, t), es, m, rfl, rfl, .key hk⟩
    | ok name =>
      have hname := propertyName_ok_iff.mp hk
      cases ht : t.toValue with
      | error f' =>
        obtain rfl : f'.under (.field name) = f := by simpa [hk, ht] using h
        exact ⟨[], (k, t), es, m, rfl, rfl, .value hname ht⟩
      | ok v =>
        cases hnew : m.isNew name with
        | false =>
          obtain rfl : ⟨[], .duplicate name⟩ = f := by simpa [hk, ht, hnew] using h
          have hold : name ∈ m.keys := by
            by_contra hnot
            exact Bool.false_ne_true (hnew.symm.trans (Mapping.isNew_iff.mpr hnot))
          exact ⟨[], (k, t), es, m, rfl, rfl, .name hname ht hold⟩
        | true =>
          obtain ⟨before, e, after, m', rfl, hm', hstops⟩ := ih (by simpa [hk, ht, hnew] using h)
          refine ⟨(k, t) :: before, e, after, m', rfl, ?_, hstops⟩
          exact entryValues_cons_ok_iff.mpr ⟨(name, v), ⟨hname, ht⟩, hnew, hm'⟩

/-! ## The fault that is reported -/

theorem FaultAt.not_converts (h : t.FaultAt m f) {v : Value} : t.toValue ≠ .ok v :=
  fun hv => h.not_convertible (toValue_ok_iff.mp hv).1

theorem FaultAt.moment_ne_nil (h : t.FaultAt m f) : m ≠ [] := by
  obtain ⟨_, _⟩ := h
  exact List.append_ne_nil_of_right_ne_nil _ (List.cons_ne_nil _ _)

/-- What happens at an index is settled by the elements up to it. -/
theorem FaultAt.of_items {before more : List Tree} {last : Nat × Stage}
    (h : (sequence (before ++ more)).FaultAt (last :: m) f) (hlt : last.1 < before.length) :
    (sequence before).FaultAt (last :: m) f := by
  obtain ⟨i, t, m', f', ht, hf, hm, rfl⟩ := faultAt_sequence_iff.mp h
  obtain ⟨rfl, rfl⟩ := List.cons.inj hm
  rw [List.getElem?_append_left hlt] at ht
  exact faultAt_sequence_iff.mpr ⟨i, t, m, f', ht, hf, rfl, rfl⟩

theorem WrongKey.of_entries {before more : List (Tree × Tree)} {last : Nat × Stage} {problem : KeyProblem}
    (h : WrongKey (before ++ more) last problem) (hlt : last.1 < before.length) :
    WrongKey before last problem := by
  cases h with
  | unsupported he hkind =>
    rw [List.getElem?_append_left hlt] at he
    exact .unsupported he hkind
  | duplicate he hname hij he' hname' =>
    rw [List.getElem?_append_left hlt] at he
    rw [List.getElem?_append_left (Nat.lt_trans hij hlt)] at he'
    exact .duplicate he hname hij he' hname'

theorem FaultAt.of_entries {before more : List (Tree × Tree)} {last : Nat × Stage}
    (h : (mapping (before ++ more)).FaultAt (last :: m) f) (hlt : last.1 < before.length) :
    (mapping before).FaultAt (last :: m) f := by
  rcases faultAt_mapping_iff.mp h with ⟨last', problem, hwrong, hm, rfl⟩ |
    ⟨i, k, t, name, m', f', he, hname, hf, hm, rfl⟩
  · obtain ⟨rfl, rfl⟩ := List.cons.inj hm
    exact faultAt_mapping_iff.mpr (.inl ⟨last, problem, hwrong.of_entries hlt, rfl, rfl⟩)
  · obtain ⟨rfl, rfl⟩ := List.cons.inj hm
    rw [List.getElem?_append_left hlt] at he
    exact faultAt_mapping_iff.mpr (.inr ⟨i, k, t, name, m, f', he, hname, hf, rfl, rfl⟩)

/-- A fault at an index is the first if none has a smaller index and it comes first at its own. -/
theorem firstFault_of_index {n : Nat} {stage : Stage} (h : t.FaultAt ((n, stage) :: m) f)
    (hbefore : ∀ last m' f', t.FaultAt (last :: m') f' → ¬last.1 < n)
    (hhere : ∀ stage' m' f', t.FaultAt ((n, stage') :: m') f' →
      (n, stage) :: m = (n, stage') :: m' ∨ Earlier ((n, stage) :: m) ((n, stage') :: m')) :
    t.FirstFault f := by
  refine ⟨_, h, ?_⟩
  intro m' f' h'
  cases m' with
  | nil => exact absurd rfl h'.moment_ne_nil
  | cons last m' =>
    obtain ⟨i, stage'⟩ := last
    rcases Nat.lt_trichotomy n i with hlt | rfl | hgt
    · exact .inr (.rel (.inl hlt))
    · exact hhere stage' m' f' h'
    · exact absurd hgt (hbefore _ _ _ h')

theorem firstFault_item {before after : List Tree} (hbefore : ∀ b ∈ before, ∃ v, b.toValue = .ok v)
    (h : t.FirstFault f) :
    (sequence (before ++ t :: after)).FirstFault (f.under (.item before.length)) := by
  obtain ⟨m, hm, hfirst⟩ := h
  have hhere : (before ++ t :: after)[before.length]? = some t := by simp
  refine firstFault_of_index
    (faultAt_sequence_iff.mpr ⟨before.length, t, m, f, hhere, hm, rfl, rfl⟩) ?_ ?_
  · intro last m' f' h' hlt
    obtain ⟨values, hvalues⟩ := exists_forall₂ hbefore
    exact (h'.of_items hlt).not_converts (toValue_sequence_ok_iff.mpr ⟨values, rfl, hvalues⟩)
  · intro stage' m' f' h'
    obtain ⟨i, u, m₁, f₁, hu, hf, hm', rfl⟩ := faultAt_sequence_iff.mp h'
    obtain ⟨hi, rfl⟩ := List.cons.inj hm'
    obtain ⟨rfl, rfl⟩ := Prod.mk.inj hi
    obtain rfl : t = u := Option.some.inj (hhere.symm.trans hu)
    rcases hfirst m' f₁ hf with rfl | hearlier
    · exact .inl rfl
    · exact .inr (.cons hearlier)

theorem converts_of_entryValues {entries : List (Tree × Tree)} {m : Mapping Value}
    (h : entryValues entries ∅ = .ok m) : (mapping entries).toValue = .ok (Value.ofMapping m) := by
  rw [toValue, h]

/-- The names in a mapping under construction are those of the entries so far. -/
theorem exists_entry_of_name {entries : List (Tree × Tree)} {m : Mapping Value} {name : String}
    (h : entryValues entries ∅ = .ok m) (hname : name ∈ m.keys) :
    ∃ (j : Nat) (k t : Tree), entries[j]? = some (k, t) ∧ k.keyName? = some name := by
  obtain ⟨fields, hall, _, hfields⟩ := entryValues_ok_iff.mp ⟨m, h, rfl⟩
  obtain ⟨field, hfield, rfl⟩ := List.mem_map.mp hname
  obtain ⟨e, he, hkey, _⟩ := exists_mem_left hfields (hall ▸ hfield)
  obtain ⟨j, hj⟩ := List.mem_iff_getElem?.mp he
  exact ⟨j, e.1, e.2, hj, hkey⟩

/-- What can happen at an entry: at each stage one thing. -/
theorem FaultAt.of_index {entries : List (Tree × Tree)} {i : Nat} {k t : Tree} {stage : Stage}
    (h : (mapping entries).FaultAt ((i, stage) :: m) f) (he : entries[i]? = some (k, t)) :
    (stage = .key ∧ m = [] ∧ k.keyName? = none) ∨
      (stage = .value ∧ (∃ name, k.keyName? = some name) ∧ ∃ f', t.FaultAt m f') ∨
      (stage = .name ∧ m = [] ∧ ∃ name, k.keyName? = some name) := by
  rcases faultAt_mapping_iff.mp h with ⟨last, problem, hwrong, hm, rfl⟩ |
    ⟨i', k', t', name, m', f', he', hname, hf, hm, rfl⟩
  · obtain ⟨rfl, rfl⟩ := List.cons.inj hm
    cases hwrong with
    | unsupported he' hkind =>
      obtain ⟨rfl, rfl⟩ : k = _ ∧ t = _ := by simpa using he.symm.trans he'
      exact .inl ⟨rfl, rfl, keyName?_eq_none_iff.mpr ⟨_, hkind⟩⟩
    | duplicate he' hname =>
      obtain ⟨rfl, rfl⟩ : k = _ ∧ t = _ := by simpa using he.symm.trans he'
      exact .inr (.inr ⟨rfl, rfl, _, hname⟩)
  · obtain ⟨hi, rfl⟩ := List.cons.inj hm
    obtain ⟨rfl, rfl⟩ := Prod.mk.inj hi
    obtain ⟨rfl, rfl⟩ : k = k' ∧ t = t' := by simpa using he.symm.trans he'
    exact .inr (.inl ⟨rfl, ⟨name, hname⟩, f', hf⟩)

theorem firstFault_entry {before after : List (Tree × Tree)} {e : Tree × Tree} {done : Mapping Value}
    (hbefore : entryValues before ∅ = .ok done) (hstops : Stops done e f)
    (hvalue : ∀ f', e.2.toValue = .error f' → e.2.FirstFault f') :
    (mapping (before ++ e :: after)).FirstFault f := by
  obtain ⟨k, t⟩ := e
  have hhere : (before ++ (k, t) :: after)[before.length]? = some (k, t) := by simp
  have hnone : ∀ last m' f', (mapping (before ++ (k, t) :: after)).FaultAt (last :: m') f' →
      ¬last.1 < before.length :=
    fun last m' f' h' hlt => (h'.of_entries hlt).not_converts (converts_of_entryValues hbefore)
  cases hstops with
  | key hproblem =>
    obtain ⟨kind, hkind, rfl⟩ := propertyName_error_iff.mp hproblem
    have hfault : (mapping (before ++ (k, t) :: after)).FaultAt [(before.length, .key)] ⟨[], .unsupported kind⟩ :=
      faultAt_mapping_iff.mpr (.inl ⟨_, _, .unsupported hhere hkind, rfl, rfl⟩)
    refine firstFault_of_index hfault hnone ?_
    intro stage m' f' h'
    rcases h'.of_index hhere with ⟨rfl, rfl, _⟩ | ⟨rfl, _⟩ | ⟨rfl, rfl, _⟩
    · exact .inl rfl
    · exact .inr (.rel (sooner_of_stage (by decide)))
    · exact .inr (.rel (sooner_of_stage (by decide)))
  | @value name f₀ hname hf₀ =>
    obtain ⟨m, hm, hfirst⟩ := hvalue f₀ hf₀
    refine firstFault_of_index
      (faultAt_mapping_iff.mpr (.inr ⟨_, k, t, name, m, f₀, hhere, hname, hm, rfl, rfl⟩)) hnone ?_
    intro stage m' f' h'
    rcases h'.of_index hhere with ⟨rfl, rfl, hno⟩ | ⟨rfl, _, f₁, hf₁⟩ | ⟨rfl, rfl, _⟩
    · exact absurd (hname.symm.trans hno) (Option.some_ne_none name)
    · rcases hfirst m' f₁ hf₁ with rfl | hearlier
      · exact .inl rfl
      · exact .inr (.cons hearlier)
    · exact .inr (.rel (sooner_of_stage (by decide)))
  | @name name v hname hv hold =>
    obtain ⟨j, k', t', hj, hname'⟩ := exists_entry_of_name hbefore hold
    have hlt : j < before.length := (List.getElem?_eq_some_iff.mp hj).1
    have hj' : (before ++ (k, t) :: after)[j]? = some (k', t') := by
      rw [List.getElem?_append_left hlt, hj]
    have hfault : (mapping (before ++ (k, t) :: after)).FaultAt [(before.length, .name)] ⟨[], .duplicate name⟩ :=
      faultAt_mapping_iff.mpr (.inl ⟨_, _, .duplicate hhere hname hlt hj' hname', rfl, rfl⟩)
    refine firstFault_of_index hfault hnone ?_
    intro stage m' f' h'
    rcases h'.of_index hhere with ⟨rfl, rfl, hno⟩ | ⟨rfl, _, f₁, hf₁⟩ | ⟨rfl, rfl, _⟩
    · exact absurd (hname.symm.trans hno) (Option.some_ne_none name)
    · exact absurd hv hf₁.not_converts
    · exact .inl rfl

theorem firstFault_of_toValue (h : t.toValue = .error f) : t.FirstFault f := by
  induction t using induct generalizing f with
  | null | boolean | number | string => cases h
  | sequence items ih =>
    have hitems : itemValues items 0 [] = .error f := by
      rw [toValue] at h
      cases hvalues : itemValues items 0 [] with
      | error f' => simpa [hvalues] using h
      | ok values => simp [hvalues] at h
    obtain ⟨before, t, after, f', rfl, hbefore, ht, rfl⟩ := itemValues_stops hitems
    rw [Nat.zero_add]
    exact firstFault_item hbefore (ih t (List.mem_append_right _ List.mem_cons_self) ht)
  | mapping entries ih =>
    have hentries : entryValues entries ∅ = .error f := by
      rw [toValue] at h
      cases hm : entryValues entries ∅ with
      | error f' => simpa [hm] using h
      | ok m => simp [hm] at h
    obtain ⟨before, e, after, done, rfl, hbefore, hstops⟩ := entryValues_stops hentries
    have he := ih e (List.mem_append_right _ List.mem_cons_self)
    exact firstFault_entry hbefore hstops fun f' hf' => he.2 hf'
  | tagged tag t ih =>
    obtain ⟨m, hm, hfirst⟩ := ih h
    exact ⟨m, faultAt_tagged_iff.mpr hm, fun m' f' h' => hfirst m' f' (faultAt_tagged_iff.mp h')⟩

theorem toValue_error_iff : t.toValue = .error f ↔ t.FirstFault f := by
  constructor
  · exact firstFault_of_toValue
  · intro h
    cases hvalue : t.toValue with
    | error f' => rw [h.unique (firstFault_of_toValue hvalue)]
    | ok v =>
      obtain ⟨m, hm, _⟩ := h
      exact absurd hvalue hm.not_converts

/-- There is a first fault wherever there is one. -/
theorem exists_firstFault_iff : (∃ f, t.FirstFault f) ↔ ¬t.Convertible := by
  constructor
  · rintro ⟨f, m, hm, _⟩
    exact hm.not_convertible
  · intro hnot
    cases hvalue : t.toValue with
    | error f => exact ⟨f, firstFault_of_toValue hvalue⟩
    | ok v => exact absurd (toValue_ok_iff.mp hvalue).1 hnot

end Yaml.Tree

/-! ## Its text -/

/-- What is wrong with a key, without the place. -/
def KeyProblem.text : KeyProblem → String
  | .unsupported kind => kind.text ++ " used as a mapping key"
  | .duplicate name => "duplicate key " ++ Quotation.text name

/-- The text of a path is that of its beginning, and a text for every further step. -/
theorem DecodeError.path_append (root steps : List ValueStep) :
    path (root ++ steps) = path root ++ String.join (steps.map ValueStep.text) := by
  rw [path, path, List.map_append, String.join_append, String.append_assoc]

theorem DecodeError.message_badKey (root : List ValueStep) (f : KeyFault) :
    (badKey root f).message =
      f.problem.text ++ " at " ++ path root ++ String.join (f.steps.map ValueStep.text) := by
  obtain ⟨steps, problem⟩ := f
  rw [String.append_assoc, ← path_append]
  cases problem with
  | unsupported kind =>
    have htext : " used as a mapping key at " = " used as a mapping key" ++ " at " := by decide
    show kind.text ++ " used as a mapping key at " ++ _ = kind.text ++ " used as a mapping key" ++ " at " ++ _
    rw [htext, ← String.append_assoc]
  | duplicate name => rfl

theorem documentValue_error_iff {root : List ValueStep} {t : Yaml.Tree} {e : DecodeError} :
    documentValue root t = .error e ↔ ∃ f, t.toValue = .error f ∧ e = .badKey root f := by
  rw [documentValue]
  cases t.toValue <;> simp [Except.mapError, eq_comm]

theorem pathAfter_eq (path : String) (steps : List ValueStep) :
    pathAfter path steps = path ++ String.join (steps.map ValueStep.text) := by
  induction steps generalizing path with
  | nil => simp [pathAfter]
  | cons step steps ih =>
    cases step with
    | item i => simp [pathAfter, ih, ValueStep.text, String.append_assoc]
    | field name => simp [pathAfter, ih, ValueStep.text, String.append_assoc]

theorem pathAfter_append (path : String) (root steps : List ValueStep) :
    pathAfter path (root ++ steps) = pathAfter (pathAfter path root) steps := by
  simp only [pathAfter_eq, List.map_append, String.join_append, String.append_assoc]

theorem message_seenFrom (root : List ValueStep) (f : KeyFault) :
    (DecodeError.badKey root f).message = (f.seenFrom (pathAfter "$" root)).message := by
  obtain ⟨steps, problem⟩ := f
  have hpath : DecodeError.path (root ++ steps) = pathAfter (pathAfter "$" root) steps := by
    rw [← pathAfter_append, pathAfter_eq]
    rfl
  rw [KeyFault.seenFrom, ← hpath]
  cases problem with
  | unsupported kind => cases kind <;> rfl
  | duplicate name => rfl

/-- Of all faults of a tree the one that a traversal meets first is reported: elements and entries in order,
and at an entry the kind of the key, then the value, then the name among the names before. There is one
exactly if the tree does not convert. Its path is the one of the tree and then the steps to the mapping that
holds the key; documents have their values and their messages from the paths that begin with a dollar sign. -/
theorem first_fault_reported (t : Yaml.Tree) :
    (∀ path e, t.convert path = .error e ↔
      ∃ f, t.FirstFault f ∧ e = ⟨pathAfter path f.steps, f.problem⟩) ∧
    ((∃ f, t.FirstFault f) ↔ ¬t.Convertible) ∧
    ∀ root : List ValueStep,
      (∀ v, documentValue root t = .ok v ↔ t.convert (pathAfter "$" root) = .ok v) ∧
      (∀ e, documentValue root t = .error e ↔ ∃ f, t.FirstFault f ∧ e = .badKey root f) ∧
      ∀ e, documentValue root t = .error e →
        ∃ fault, t.convert (pathAfter "$" root) = .error fault ∧ e.message = fault.message := by
  refine ⟨?anyPath, Yaml.Tree.exists_firstFault_iff, ?document⟩
  case anyPath =>
    intro path e
    rw [Yaml.Tree.convert_error_iff]
    simp only [Yaml.Tree.toValue_error_iff]
    rfl
  case document =>
    intro root
    refine ⟨?_, ?_, ?_⟩
    · intro v
      rw [documentValue_ok_iff, Yaml.Tree.convert_ok_iff]
    · intro e
      rw [documentValue_error_iff]
      simp only [Yaml.Tree.toValue_error_iff]
    · intro e he
      obtain ⟨f, hf, rfl⟩ := documentValue_error_iff.mp he
      exact ⟨_, Yaml.Tree.convert_error_iff.mpr ⟨f, hf, rfl⟩, message_seenFrom root f⟩

/-- A fault in the value of an entry is met before the collision of its key, and after what is wrong with the
keys of the entries before. -/
example :
    (Yaml.Tree.mapping [(.boolean true, .null),
      (.string "true", .sequence [.null, .mapping [(.tagged "!t" (.mapping []), .null)]])]).convert "$" =
      .error ⟨"$.true[1]", .unsupported .mapping⟩ := rfl

end ConfigModules
