import ConfigModules.Yaml.Merge
import ConfigModules.Proofs.Yaml.Tree
import ConfigModules.Proofs.Yields

/-! Merging. The entries of a merged mapping are found as the own ones first and then those of the first
source that has the key; the merge key itself is found in the sources alone. -/
namespace ConfigModules.Yaml

open Tree

/-- The key under which a mapping names the mappings to merge. -/
def mergeKey : Tree := .string "<<"

/-- The mappings that a mapping merges: the one under its merge key, or those of the sequence there. -/
inductive Merges (entries : List (Tree × Tree)) : List (List (Tree × Tree)) → Prop
  | nothing : valueAt? mergeKey entries = none → Merges entries []
  | one {source : List (Tree × Tree)} :
      valueAt? mergeKey entries = some (.mapping source) → Merges entries [source]
  | several {sources : List (List (Tree × Tree))} :
      valueAt? mergeKey entries = some (.sequence (sources.map Tree.mapping)) → Merges entries sources

namespace Merge

theorem isMergeKey_iff {k : Tree} : isMergeKey k = true ↔ k = mergeKey := by
  cases k <;> simp [isMergeKey, mergeKey, same]

theorem isMergeKey_eq (k : Tree) : isMergeKey k = mergeKey.same k := by
  rw [Bool.eq_iff_iff, isMergeKey_iff, mergeKey, same_string_iff]

/-- Only the merge key is the same as the merge key. -/
theorem isMergeKey_of_same {k j : Tree} (h : k.same j = true) (hk : isMergeKey k = false) :
    isMergeKey j = false := by
  refine Bool.eq_false_iff.mpr ?_
  intro hj
  rw [isMergeKey_iff.mp hj] at h
  exact Bool.eq_false_iff.mp hk h

/-! ## Taking the merge entry out -/

/-- A list with its last element first. -/
def lastFirst {α : Type} (xs : List α) : List α := xs.getLast?.toList ++ xs.dropLast

section lastFirst

variable {α β : Type}

theorem lastFirst_concat (xs : List α) (x : α) : lastFirst (xs ++ [x]) = x :: xs := by
  rw [lastFirst, List.getLast?_concat, List.dropLast_concat]
  rfl

theorem lastFirst_map (f : α → β) (xs : List α) : lastFirst (xs.map f) = (lastFirst xs).map f := by
  rcases List.eq_nil_or_concat xs with rfl | ⟨rest, last, rfl⟩
  · rfl
  · simp [lastFirst_concat]

theorem lastFirst_perm (xs : List α) : (lastFirst xs).Perm xs := by
  rcases List.eq_nil_or_concat xs with rfl | ⟨rest, last, rfl⟩
  · exact .nil
  · rw [List.concat_eq_append, lastFirst_concat]
    exact (List.perm_append_singleton last rest).symm

/-- Among different elements the order stays if there are no two. -/
theorem lastFirst_eq_iff {xs : List α} (h : xs.Nodup) : lastFirst xs = xs ↔ xs.length ≤ 1 := by
  rcases List.eq_nil_or_concat xs with rfl | ⟨rest, last, rfl⟩
  · simp [lastFirst]
  · rw [List.concat_eq_append] at h ⊢
    rw [lastFirst_concat]
    cases rest with
    | nil => simp
    | cons x rest =>
      simp only [List.cons_append, List.cons.injEq, List.length_cons, List.length_append]
      have hlast : last ≠ x := by
        rintro rfl
        simp at h
      simp [hlast]

end lastFirst

section takeOut

variable {α : Type} {pre post : List (Tree × α)} {e : Tree × α}

theorem findIdx?_mergeKey (hpre : ∀ f ∈ pre, isMergeKey f.1 = false) (he : isMergeKey e.1 = true) :
    (pre ++ e :: post).findIdx? (fun f => isMergeKey f.1) = some pre.length := by
  have hnone : pre.findIdx? (fun f => isMergeKey f.1) = none := List.findIdx?_eq_none_iff.mpr hpre
  simp [List.findIdx?_append, hnone, List.findIdx?_cons, he]

/-- The last entry comes to the place of the merge entry. -/
theorem takeOut_of_key (hpre : ∀ f ∈ pre, isMergeKey f.1 = false) (he : isMergeKey e.1 = true) :
    takeOut (pre ++ e :: post) = pre ++ lastFirst post := by
  rcases List.eq_nil_or_concat post with rfl | ⟨rest, last, rfl⟩
  · simp [takeOut, findIdx?_mergeKey hpre he, lastFirst]
  · have hlast : (pre ++ e :: (rest ++ [last])).getLast? = some last := by
      rw [← List.cons_append, ← List.append_assoc, List.getLast?_concat]
    have hplace : (pre ++ e :: (rest ++ [last])).set pre.length last = pre ++ last :: (rest ++ [last]) := by
      rw [List.set_append_right _ _ (Nat.le_refl _), Nat.sub_self, List.set_cons_zero]
    have hmore : pre.length + 1 ≠ (pre ++ e :: (rest ++ [last])).length := by
      simp only [List.length_append, List.length_cons]
      omega
    simp only [takeOut, List.concat_eq_append, findIdx?_mergeKey hpre he, hlast, if_neg hmore, hplace]
    rw [← List.cons_append, ← List.append_assoc, List.dropLast_concat, lastFirst_concat]

theorem takeOut_of_no_key {entries : List (Tree × α)}
    (h : ∀ f ∈ entries, isMergeKey f.1 = false) : takeOut entries = entries := by
  have hnone : entries.findIdx? (fun f => isMergeKey f.1) = none := List.findIdx?_eq_none_iff.mpr h
  rw [takeOut, hnone]

theorem takeOut_perm (hpre : ∀ f ∈ pre, isMergeKey f.1 = false) (he : isMergeKey e.1 = true) :
    (takeOut (pre ++ e :: post)).Perm (pre ++ post) := by
  rw [takeOut_of_key hpre he]
  exact (lastFirst_perm post).append_left pre

variable {entries : List (Tree × α)}

theorem isMergeKey_of_split (h : EntriesDistinct (pre ++ e :: post)) (he : isMergeKey e.1 = true) :
    ∀ f ∈ pre ++ post, isMergeKey f.1 = false := by
  have hapart := (List.perm_middle.pairwise_iff Apart.symm).mp h.apart
  intro f hf
  rw [isMergeKey_eq, ← isMergeKey_iff.mp he]
  exact ((List.pairwise_cons.mp hapart).1 f hf).1

/-- Entries with distinct keys have one merge entry or none. -/
theorem split_mergeKey (h : EntriesDistinct entries) :
    (∀ f ∈ entries, isMergeKey f.1 = false) ∨
      ∃ pre e post, entries = pre ++ e :: post ∧ isMergeKey e.1 = true ∧
        ∀ f ∈ pre ++ post, isMergeKey f.1 = false := by
  by_cases hnone : ∀ f ∈ entries, isMergeKey f.1 = false
  · exact .inl hnone
  · push Not at hnone
    obtain ⟨e, he, hkey⟩ := hnone
    rw [Bool.ne_false_iff] at hkey
    obtain ⟨pre, post, rfl⟩ := List.append_of_mem he
    exact .inr ⟨pre, e, post, rfl, hkey, isMergeKey_of_split h hkey⟩

theorem entriesDistinct_takeOut (h : EntriesDistinct entries) : EntriesDistinct (takeOut entries) := by
  rcases split_mergeKey h with hnone | ⟨pre, e, post, rfl, hkey, hother⟩
  · rwa [takeOut_of_no_key hnone]
  · have hpre : ∀ f ∈ pre, isMergeKey f.1 = false := fun f hf => hother f (List.mem_append_left _ hf)
    have hsub : (pre ++ post).Sublist (pre ++ e :: post) :=
      (List.Sublist.refl pre).append (List.sublist_cons_self e post)
    exact (h.sublist hsub).perm (takeOut_perm hpre hkey).symm

/-- Without its merge entry a mapping holds what it held, but for the merge key. -/
theorem valueAt?_takeOut (h : EntriesDistinct entries) {k : Tree} (hk : k.KeysDistinct) :
    valueAt? k (takeOut entries) = if isMergeKey k then none else valueAt? k entries := by
  rcases split_mergeKey h with hnone | ⟨pre, e, post, rfl, hkey, hother⟩
  · rw [takeOut_of_no_key hnone]
    split_ifs with hmerge
    · rw [isMergeKey_iff.mp hmerge, valueAt?_eq_none_iff]
      intro f hf
      rw [← isMergeKey_eq]
      exact hnone f hf
    · rfl
  · have hpre : ∀ f ∈ pre, isMergeKey f.1 = false := fun f hf => hother f (List.mem_append_left _ hf)
    rw [← valueAt?_perm (entriesDistinct_takeOut h) hk (takeOut_perm hpre hkey)]
    split_ifs with hmerge
    · rw [isMergeKey_iff.mp hmerge, valueAt?_eq_none_iff]
      intro f hf
      rw [← isMergeKey_eq]
      exact hother f hf
    · have hke : k.same e.1 = false := by
        refine Bool.eq_false_iff.mpr ?_
        intro hsame
        exact Bool.eq_false_iff.mp (isMergeKey_of_same hsame (Bool.eq_false_iff.mpr hmerge)) hkey
      rw [valueAt?_append, valueAt?_append, valueAt?_cons, hke, if_neg Bool.false_ne_true]

end takeOut

/-! ## Adding what is missing -/

section addMissing

variable {α : Type} {entries added : List (Tree × α)} {k : Tree}

theorem addMissing_cons (entries : List (Tree × α)) (e : Tree × α) (added : List (Tree × α)) :
    addMissing entries (e :: added) =
      addMissing (if entries.any (fun f => e.1.same f.1) then entries else entries ++ [e]) added := rfl

/-- What is there stays, and what is added is found where nothing was there. -/
theorem valueAt?_addMissing (entries added : List (Tree × α)) :
    valueAt? k (addMissing entries added) = (valueAt? k entries).or (valueAt? k added) := by
  induction added generalizing entries with
  | nil => simp [addMissing]
  | cons e added ih =>
    rw [addMissing_cons, ih, valueAt?_cons]
    split_ifs with hold hsame hsame
    · -- the entry is left out because a key that is the same is there
      obtain ⟨f, hf, hef⟩ := List.any_eq_true.mp hold
      cases hfound : valueAt? k entries with
      | none =>
        have hkf : k.same f.1 = true := same_trans hsame hef
        exact absurd hkf (Bool.eq_false_iff.mp (valueAt?_eq_none_iff.mp hfound f hf))
      | some x => rfl
    · rfl
    · rw [valueAt?_append, valueAt?_cons, if_pos hsame, Option.or_assoc]
      rfl
    · rw [valueAt?_append, valueAt?_cons, if_neg hsame, Option.or_assoc]
      rfl

theorem entriesDistinct_addMissing (h : EntriesDistinct entries)
    (hadded : ∀ e ∈ added, e.1.KeysDistinct) : EntriesDistinct (addMissing entries added) := by
  induction added generalizing entries with
  | nil => exact h
  | cons e added ih =>
    obtain ⟨he, hadded⟩ := List.forall_mem_cons.mp hadded
    rw [addMissing_cons]
    split_ifs with hold
    · exact ih h hadded
    · refine ih ⟨?_, ?_⟩ hadded
      · refine List.pairwise_append.mpr ⟨h.apart, List.pairwise_singleton _ _, ?_⟩
        intro f hf e' he'
        rw [List.mem_singleton.mp he']
        have hef : e.1.same f.1 = false := by
          simpa using List.any_eq_false.mp (Bool.eq_false_iff.mpr hold) f hf
        refine ⟨Bool.eq_false_iff.mpr ?_, hef⟩
        intro hsame
        exact Bool.eq_false_iff.mp hef (same_symm (h.keys f hf) he hsame)
      · intro f hf
        rcases List.mem_append.mp hf with hf | hf
        · exact h.keys f hf
        · rw [List.mem_singleton.mp hf]
          exact he

theorem prefix_addMissing (entries added : List (Tree × α)) :
    entries <+: addMissing entries added := by
  induction added generalizing entries with
  | nil => exact List.prefix_refl entries
  | cons e added ih =>
    rw [addMissing_cons]
    split_ifs
    · exact ih entries
    · exact (List.prefix_append entries [e]).trans (ih _)

variable {sources : List (List (Tree × α))}

/-- Of several sources the first that has a key gives it. -/
theorem valueAt?_addAll (entries : List (Tree × α)) (sources : List (List (Tree × α))) :
    valueAt? k (sources.foldl addMissing entries) =
      (valueAt? k entries).or (sources.findSome? (valueAt? k)) := by
  induction sources generalizing entries with
  | nil => simp
  | cons source sources ih =>
    rw [List.foldl_cons, ih, valueAt?_addMissing, List.findSome?_cons, Option.or_assoc]
    cases valueAt? k source <;> rfl

theorem entriesDistinct_addAll (h : EntriesDistinct entries)
    (hsources : ∀ source ∈ sources, ∀ e ∈ source, e.1.KeysDistinct) :
    EntriesDistinct (sources.foldl addMissing entries) := by
  induction sources generalizing entries with
  | nil => exact h
  | cons source sources ih =>
    obtain ⟨hsource, hsources⟩ := List.forall_mem_cons.mp hsources
    exact ih (entriesDistinct_addMissing h hsource) hsources

theorem prefix_addAll (entries : List (Tree × α)) (sources : List (List (Tree × α))) :
    entries <+: sources.foldl addMissing entries := by
  induction sources generalizing entries with
  | nil => exact List.prefix_refl entries
  | cons source sources ih => exact (prefix_addMissing entries source).trans (ih _)

end addMissing

end Merge

end ConfigModules.Yaml
