import Std.Data.TreeMap
/-!
Mappings with unique text keys in insertion order. The first value given to a key stays, at its
first place. An ordered index answers look-ups; its agreement with the entries is part of the type.
-/
namespace ConfigModules

structure Mapping (α : Type) where
  /-- The entries, the latest first. -/
  newestFirst : List (String × α)
  index : Std.TreeMap String α
  distinct : (newestFirst.map Prod.fst).Nodup
  index_eq : ∀ k, index[k]? = newestFirst.lookup k

namespace Mapping

variable {α : Type}

def empty : Mapping α where
  newestFirst := []
  index := ∅
  distinct := List.nodup_nil
  index_eq := by simp

instance : EmptyCollection (Mapping α) := ⟨empty⟩
instance : Inhabited (Mapping α) := ⟨empty⟩

def get? (m : Mapping α) (k : String) : Option α := m.index[k]?

theorem lookup_eq_none_iff {k : String} {l : List (String × α)} :
    l.lookup k = none ↔ k ∉ l.map Prod.fst := by
  rw [List.lookup_eq_none_iff]
  constructor
  · intro h hk
    obtain ⟨e, he, rfl⟩ := List.mem_map.mp hk
    exact absurd (h e he) (by simp)
  · intro h e he
    exact bne_iff_ne.mpr fun hk => h (List.mem_map.mpr ⟨e, he, hk.symm⟩)

/-- Adds an entry whose key is new; an entry with a known key changes nothing. -/
def insertNew (m : Mapping α) (k : String) (v : α) : Mapping α :=
  if h : m.get? k = none then
    { newestFirst := (k, v) :: m.newestFirst
      index := m.index.insert k v
      distinct := by
        have : k ∉ m.newestFirst.map Prod.fst := by
          rw [← lookup_eq_none_iff, ← m.index_eq]; exact h
        simpa using ⟨by simpa using this, m.distinct⟩
      index_eq := by
        intro j
        rw [Std.TreeMap.getElem?_insert, m.index_eq]
        by_cases hj : k = j
        · subst hj; simp
        · have hb : (j == k) = false := by simpa using fun e => hj e.symm
          simp [List.lookup_cons, hb, hj] }
  else m

def toList (m : Mapping α) : List (String × α) := m.newestFirst.reverse

def keys (m : Mapping α) : List String := m.toList.map Prod.fst

def size (m : Mapping α) : Nat := m.newestFirst.length

def isEmpty (m : Mapping α) : Bool := m.newestFirst.isEmpty

/-- Whether `insertNew` with this key would add an entry. -/
def isNew (m : Mapping α) (k : String) : Bool := (m.get? k).isNone

def ofList (l : List (String × α)) : Mapping α :=
  l.foldl (fun m e => m.insertNew e.1 e.2) empty

theorem nodup_keys (m : Mapping α) : m.keys.Nodup := by
  rw [keys, toList, List.map_reverse]
  exact (List.reverse_perm _).symm.nodup m.distinct

theorem isNew_iff {m : Mapping α} {k : String} : m.isNew k = true ↔ k ∉ m.keys := by
  rw [isNew, Option.isNone_iff_eq_none, get?, m.index_eq, lookup_eq_none_iff, keys, toList,
    List.map_reverse, List.mem_reverse]

/-- A new entry comes last. -/
theorem toList_insertNew {m : Mapping α} {k : String} (h : m.isNew k = true) (v : α) :
    (m.insertNew k v).toList = m.toList ++ [(k, v)] := by
  have hnone : m.get? k = none := Option.isNone_iff_eq_none.mp h
  rw [insertNew, dif_pos hnone]
  exact List.reverse_cons

end Mapping

end ConfigModules
