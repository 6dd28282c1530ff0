import ConfigModules.Value
import Mathlib.Data.List.Dedup
import Mathlib.Data.List.Nodup
import Mathlib.Logic.Function.Basic

/-! Mappings and the insertions made in them. Whatever is asked of a mapping is answered from the list of
all insertions alone, refused ones among them: of several under one key the first counts. -/
namespace ConfigModules

section Insertions

variable {α : Type}

theorem lookup_of_mem {fields : List (String × α)} (h : (fields.map Prod.fst).Nodup)
    {f : String × α} (hf : f ∈ fields) : fields.lookup f.1 = some f.2 := by
  induction fields with
  | nil => cases hf
  | cons g gs ih =>
    obtain ⟨hg, hgs⟩ := List.nodup_cons.mp h
    rw [List.lookup_cons]
    rcases List.mem_cons.mp hf with rfl | hf
    · simp
    · have hother : (f.1 == g.1) = false := by
        rw [beq_eq_false_iff_ne]
        intro hname
        exact hg (hname ▸ List.mem_map_of_mem hf)
      rw [hother, ih hgs hf]

theorem mem_of_lookup {fields : List (String × α)} {name : String} {x : α}
    (h : fields.lookup name = some x) : (name, x) ∈ fields := by
  obtain ⟨before, after, rfl, _⟩ := List.lookup_eq_some_iff.mp h
  exact List.mem_append_right _ List.mem_cons_self

/-! ## Lists of insertions -/

/-- The insertions that are the first under their keys. -/
def firstInsertions : List (String × α) → List (String × α)
  | [] => []
  | e :: es => e :: (firstInsertions es).filter (·.1 ≠ e.1)

theorem mem_firstInsertions_iff {l : List (String × α)} {e : String × α} :
    e ∈ firstInsertions l ↔ l.lookup e.1 = some e.2 := by
  induction l with
  | nil => simp [firstInsertions]
  | cons f fs ih =>
    rw [firstInsertions, List.mem_cons, List.mem_filter, ih, List.lookup_cons]
    by_cases hkey : e.1 = f.1
    · simp [hkey, Prod.ext_iff, eq_comm]
    · have hne : (e.1 == f.1) = false := beq_eq_false_iff_ne.mpr hkey
      have hother : e ≠ f := fun h => hkey (congrArg Prod.fst h)
      simp [hne, hother, hkey]

theorem mem_keys_firstInsertions {l : List (String × α)} {k : String} :
    k ∈ (firstInsertions l).map Prod.fst ↔ k ∈ l.map Prod.fst := by
  constructor
  · intro h
    obtain ⟨e, he, rfl⟩ := List.mem_map.mp h
    apply Decidable.byContradiction
    intro hmissing
    rw [mem_firstInsertions_iff, Mapping.lookup_eq_none_iff.mpr hmissing] at he
    cases he
  · intro h
    cases hlookup : l.lookup k with
    | none => exact absurd h (Mapping.lookup_eq_none_iff.mp hlookup)
    | some v => exact List.mem_map.mpr ⟨(k, v), mem_firstInsertions_iff.mpr hlookup, rfl⟩

/-- Keys stand in the order of their first insertion. -/
theorem pairwise_firstInsertions (l : List (String × α)) :
    ((firstInsertions l).map Prod.fst).Pairwise fun j k =>
      (l.map Prod.fst).idxOf j < (l.map Prod.fst).idxOf k := by
  induction l with
  | nil => exact .nil
  | cons e es ih =>
    simp only [firstInsertions, List.map_cons, List.pairwise_cons]
    have hlater : ∀ k, k ≠ e.1 →
        (e.1 :: es.map Prod.fst).idxOf k = (es.map Prod.fst).idxOf k + 1 := by
      intro k hk
      exact List.idxOf_cons_ne _ hk.symm
    have hkeys : ∀ k ∈ ((firstInsertions es).filter (·.1 ≠ e.1)).map Prod.fst, k ≠ e.1 := by
      intro k hk
      obtain ⟨f, hf, rfl⟩ := List.mem_map.mp hk
      simpa using (List.mem_filter.mp hf).2
    constructor
    · intro k hk
      rw [hlater k (hkeys k hk), List.idxOf_cons_self]
      exact Nat.succ_pos _
    · have hsub := List.filter_sublist (p := fun f => decide (f.1 ≠ e.1)) (l := firstInsertions es)
      refine (ih.sublist (hsub.map Prod.fst)).imp_of_mem ?_
      intro j k hj hk hjk
      rw [hlater j (hkeys j hj), hlater k (hkeys k hk)]
      exact Nat.succ_lt_succ hjk

theorem nodup_firstInsertions (l : List (String × α)) : ((firstInsertions l).map Prod.fst).Nodup :=
  (pairwise_firstInsertions l).imp fun h => by
    rintro rfl
    exact Nat.lt_irrefl _ h

theorem length_firstInsertions (l : List (String × α)) :
    (firstInsertions l).length = (l.map Prod.fst).dedup.length := by
  have hperm : ((firstInsertions l).map Prod.fst).Perm (l.map Prod.fst).dedup := by
    rw [List.perm_ext_iff_of_nodup (nodup_firstInsertions l) (List.nodup_dedup _)]
    intro k
    rw [mem_keys_firstInsertions, List.mem_dedup]
  rw [← hperm.length_eq, List.length_map]

/-- An insertion under a known key is not one of the first. -/
theorem firstInsertions_concat (l : List (String × α)) (e : String × α) :
    firstInsertions (l ++ [e]) =
      if e.1 ∈ l.map Prod.fst then firstInsertions l else firstInsertions l ++ [e] := by
  induction l with
  | nil => rfl
  | cons f fs ih =>
    rw [List.cons_append, firstInsertions, ih]
    by_cases hhead : e.1 = f.1
    · split_ifs <;> simp_all [firstInsertions]
    · split_ifs <;> simp_all [firstInsertions]

end Insertions

namespace Mapping

variable {α : Type}

theorem insertNew_of_known {m : Mapping α} {k : String} (h : m.isNew k = false) (v : α) :
    m.insertNew k v = m := by
  rw [insertNew, dif_neg]
  intro hnone
  rw [isNew, hnone] at h
  cases h

/-- The next of some entries with keys of their own is a new one. -/
theorem isNew_of_nodup {m : Mapping α} {e : String × α} {es : List (String × α)}
    (h : ((m.toList ++ e :: es).map Prod.fst).Nodup) : m.isNew e.1 = true := by
  rw [isNew_iff]
  intro hold
  rw [List.map_append, List.nodup_append] at h
  exact h.2.2 e.1 hold e.1 List.mem_cons_self rfl

theorem get?_eq_some_iff {m : Mapping α} {k : String} {v : α} :
    m.get? k = some v ↔ (k, v) ∈ m.toList := by
  rw [get?, m.index_eq, toList, List.mem_reverse]
  constructor
  · intro h
    exact mem_of_lookup h
  · intro h
    exact lookup_of_mem m.distinct h

/-- A mapping that came from some insertions holds the first ones. -/
def Holds (m : Mapping α) (l : List (String × α)) : Prop := m.toList = firstInsertions l

namespace Holds

variable {m : Mapping α} {l : List (String × α)}

theorem empty : (∅ : Mapping α).Holds [] := rfl

theorem isNew_iff (h : m.Holds l) {k : String} : m.isNew k = true ↔ k ∉ l.map Prod.fst := by
  rw [Mapping.isNew_iff, keys, h, mem_keys_firstInsertions]

theorem insertNew (h : m.Holds l) (k : String) (v : α) : (m.insertNew k v).Holds (l ++ [(k, v)]) := by
  rw [Holds, firstInsertions_concat]
  split_ifs with hk
  · have hknown : m.isNew k = false := by
      rw [Bool.eq_false_iff, ne_eq, h.isNew_iff]
      exact not_not_intro hk
    rw [insertNew_of_known hknown, h]
  · rw [toList_insertNew (h.isNew_iff.mpr hk), h]

theorem get? (h : m.Holds l) (k : String) : m.get? k = l.lookup k := by
  apply Option.ext
  intro v
  rw [get?_eq_some_iff, h, mem_firstInsertions_iff]

theorem size (h : m.Holds l) : m.size = (l.map Prod.fst).dedup.length := by
  rw [← length_firstInsertions, ← h, toList, List.length_reverse, Mapping.size]

theorem isEmpty (h : m.Holds l) : m.isEmpty = l.isEmpty := by
  have hlist : m.isEmpty = m.toList.isEmpty := List.isEmpty_reverse.symm
  rw [hlist, h]
  cases l <;> rfl

end Holds

end Mapping

/-! ## Equality -/

/-- Lists of entries with equal keys and equal values, position by position. -/
def sameInPlace (a b : List (String × Value)) : Bool :=
  a.length == b.length && (a.zip b).all fun (e, f) => e.1 == f.1 && e.2.same f.2

theorem sameEntries_eq (a b : List (String × Value)) : Value.sameEntries a b = sameInPlace a b := by
  induction a generalizing b with
  | nil => cases b <;> simp [Value.sameEntries, sameInPlace]
  | cons e es ih =>
    cases b with
    | nil => simp [Value.sameEntries, sameInPlace]
    | cons f fs =>
      simp only [Value.sameEntries, ih, sameInPlace, List.length_cons, List.zip_cons_cons, List.all_cons]
      have hlength : (es.length + 1 == fs.length + 1) = (es.length == fs.length) := by simp
      rw [hlength, Bool.and_left_comm]

theorem keys_of_sameInPlace {a b : List (String × Value)} (h : sameInPlace a b = true) :
    a.map Prod.fst = b.map Prod.fst := by
  rw [← sameEntries_eq] at h
  induction a generalizing b with
  | nil => cases b <;> simp_all [Value.sameEntries]
  | cons e es ih =>
    cases b with
    | nil => simp [Value.sameEntries] at h
    | cons f fs =>
      simp only [Value.sameEntries, Bool.and_eq_true, beq_iff_eq] at h
      rw [List.map_cons, List.map_cons, h.1.1, ih h.2]

/-- Entries with the keys of a mapping in their order are those of the mapping, if they are among them. -/
theorem eq_of_keys_eq {α : Type} {a b : List (String × α)} (hdistinct : (b.map Prod.fst).Nodup)
    (hkeys : a.map Prod.fst = b.map Prod.fst) (hsub : a ⊆ b) : a = b := by
  induction a generalizing b with
  | nil => exact (List.map_eq_nil_iff.mp hkeys.symm).symm
  | cons e es ih =>
    cases b with
    | nil => cases hkeys
    | cons f fs =>
      obtain ⟨hkey, hmore⟩ := List.cons.inj hkeys
      obtain ⟨hnew, hdistinct⟩ := List.nodup_cons.mp hdistinct
      obtain ⟨he, hes⟩ := List.cons_subset.mp hsub
      have hef : e = f := by
        rcases List.mem_cons.mp he with hef | hlater
        · exact hef
        · exact absurd (hkey ▸ List.mem_map_of_mem hlater) hnew
      have hrest : es ⊆ fs := by
        intro x hx
        rcases List.mem_cons.mp (hes hx) with rfl | hx'
        · exact absurd (hmore ▸ List.mem_map_of_mem hx) hnew
        · exact hx'
      rw [hef, ih hdistinct hmore hrest]

theorem same_ofMapping (a b : Mapping Value) :
    (Value.ofMapping a).same (Value.ofMapping b) = sameInPlace a.toList b.toList :=
  sameEntries_eq a.toList b.toList

theorem not_same_of_reordered {a b : Mapping Value} (hperm : a.toList.Perm b.toList)
    (horder : a.toList ≠ b.toList) : (Value.ofMapping a).same (Value.ofMapping b) = false := by
  rw [same_ofMapping, Bool.eq_false_iff]
  intro hsame
  exact horder (eq_of_keys_eq b.nodup_keys (keys_of_sameInPlace hsame) hperm.subset)

/-! ## Runs of calls -/

/-- A call on mappings that are kept under numbers. -/
inductive MappingCall where
  | insert (mapping : Nat) (key : String) (value : Value)
  | copy (source target : Nat)
  | get (mapping : Nat) (key : String)
  | keys (mapping : Nat)
  | entries (mapping : Nat)
  | size (mapping : Nat)
  | isEmpty (mapping : Nat)
  | same (mapping other : Nat)

inductive MappingAnswer where
  | done
  | truth (b : Bool)
  | count (n : Nat)
  | found (value : Option Value)
  | names (keys : List String)
  | listing (entries : List (String × Value))

namespace MappingCall

/-- The answer of mappings to a call, and the mappings after it. -/
def run (mappings : Nat → Mapping Value) : MappingCall → MappingAnswer × (Nat → Mapping Value)
  | insert i k v => (.truth ((mappings i).isNew k), Function.update mappings i ((mappings i).insertNew k v))
  | copy i j => (.done, Function.update mappings j (mappings i))
  | get i k => (.found ((mappings i).get? k), mappings)
  | keys i => (.names (mappings i).keys, mappings)
  | entries i => (.listing (mappings i).toList, mappings)
  | size i => (.count (mappings i).size, mappings)
  | isEmpty i => (.truth (mappings i).isEmpty, mappings)
  | same i j => (.truth ((Value.ofMapping (mappings i)).same (Value.ofMapping (mappings j))), mappings)

/-- The answer that the insertions made so far give to a call. -/
def replay (insertions : Nat → List (String × Value)) :
    MappingCall → MappingAnswer × (Nat → List (String × Value))
  | insert i k v =>
    (.truth (decide (k ∉ (insertions i).map Prod.fst)),
      Function.update insertions i (insertions i ++ [(k, v)]))
  | copy i j => (.done, Function.update insertions j (insertions i))
  | get i k => (.found ((insertions i).lookup k), insertions)
  | keys i => (.names ((firstInsertions (insertions i)).map Prod.fst), insertions)
  | entries i => (.listing (firstInsertions (insertions i)), insertions)
  | size i => (.count ((insertions i).map Prod.fst).dedup.length, insertions)
  | isEmpty i => (.truth (insertions i).isEmpty, insertions)
  | same i j =>
    (.truth (sameInPlace (firstInsertions (insertions i)) (firstInsertions (insertions j))), insertions)

/-- The answers to calls one after the other. -/
def answers {σ : Type} (step : σ → MappingCall → MappingAnswer × σ) : σ → List MappingCall → List MappingAnswer
  | _, [] => []
  | s, c :: cs => (step s c).1 :: answers step (step s c).2 cs

variable {mappings : Nat → Mapping Value} {insertions : Nat → List (String × Value)}

theorem update_holds (h : ∀ i, (mappings i).Holds (insertions i)) {m : Mapping Value}
    {l : List (String × Value)} (hm : m.Holds l) (j : Nat) :
    ∀ i, (Function.update mappings j m i).Holds (Function.update insertions j l i) := by
  intro i
  by_cases hij : i = j
  · subst hij
    rwa [Function.update_self, Function.update_self]
  · rw [Function.update_of_ne hij, Function.update_of_ne hij]
    exact h i

/-- One call is answered alike, and the mappings hold the first insertions again. -/
theorem run_eq_replay (h : ∀ i, (mappings i).Holds (insertions i)) (c : MappingCall) :
    (c.run mappings).1 = (c.replay insertions).1 ∧
      ∀ i, ((c.run mappings).2 i).Holds ((c.replay insertions).2 i) := by
  cases c with
  | insert i k v =>
    constructor
    · have hnew : (mappings i).isNew k = decide (k ∉ (insertions i).map Prod.fst) := by
        rw [Bool.eq_iff_iff, (h i).isNew_iff, decide_eq_true_iff]
      exact congrArg MappingAnswer.truth hnew
    · exact update_holds h ((h i).insertNew k v) i
  | copy i j => exact ⟨rfl, update_holds h (h i) j⟩
  | get i k => exact ⟨congrArg MappingAnswer.found ((h i).get? k), h⟩
  | keys i => exact ⟨congrArg MappingAnswer.names (congrArg (List.map Prod.fst) (h i)), h⟩
  | entries i => exact ⟨congrArg MappingAnswer.listing (h i), h⟩
  | size i => exact ⟨congrArg MappingAnswer.count (h i).size, h⟩
  | isEmpty i => exact ⟨congrArg MappingAnswer.truth (h i).isEmpty, h⟩
  | same i j =>
    refine ⟨?_, h⟩
    rw [run, replay, same_ofMapping, h i, h j]

theorem answers_eq (h : ∀ i, (mappings i).Holds (insertions i)) (calls : List MappingCall) :
    answers run mappings calls = answers replay insertions calls := by
  induction calls generalizing mappings insertions with
  | nil => rfl
  | cons c cs ih =>
    obtain ⟨hanswer, hnext⟩ := run_eq_replay h c
    rw [answers, answers, hanswer, ih hnext]

end MappingCall

/-- Mappings are the lists of their first insertions. All calls on mappings that begin empty, with copies
and reads in any order, are answered by the insertions made so far; the first insertions are those that a
look-up finds, in the order in which their keys came; a refused insertion changes nothing at all; and
entries in another order make another mapping. -/
theorem mappings_hold_first_insertions :
    (∀ calls, MappingCall.answers MappingCall.run (fun _ => ∅) calls =
      MappingCall.answers MappingCall.replay (fun _ => []) calls) ∧
    (∀ l : List (String × Value), (∀ e, e ∈ firstInsertions l ↔ l.lookup e.1 = some e.2) ∧
      ((firstInsertions l).map Prod.fst).Pairwise fun j k =>
        (l.map Prod.fst).idxOf j < (l.map Prod.fst).idxOf k) ∧
    (∀ (m : Mapping Value) k v, m.isNew k = false → m.insertNew k v = m) ∧
    ∀ a b : Mapping Value, a.toList.Perm b.toList → a.toList ≠ b.toList →
      (Value.ofMapping a).same (Value.ofMapping b) = false := by
  refine ⟨?runs, ?first, ?refused, ?reordered⟩
  case runs =>
    intro calls
    exact MappingCall.answers_eq (fun _ => Mapping.Holds.empty) calls
  case first =>
    intro l
    exact ⟨fun e => mem_firstInsertions_iff, pairwise_firstInsertions l⟩
  case refused =>
    intro m k v h
    exact Mapping.insertNew_of_known h v
  case reordered =>
    intro a b hperm horder
    exact not_same_of_reordered hperm horder

theorem refused_and_reordered :
    (Mapping.ofList [("a", Value.null)]).insertNew "a" (.boolean true) = Mapping.ofList [("a", .null)] ∧
      (Value.ofMapping (Mapping.ofList [("a", .null), ("b", .null)])).same
        (Value.ofMapping (Mapping.ofList [("b", .null), ("a", .null)])) = false := by
  obtain ⟨_, _, refused, reordered⟩ := mappings_hold_first_insertions
  constructor
  · exact refused _ _ _ rfl
  · refine reordered _ _ (List.Perm.swap _ _ _) ?_
    intro h
    have hkeys : ["a", "b"] = ["b", "a"] := congrArg (List.map Prod.fst) h
    exact absurd hkeys (by decide)

end ConfigModules
