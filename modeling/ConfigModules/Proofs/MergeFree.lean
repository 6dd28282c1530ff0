import ConfigModules.Proofs.DocumentTree

/-! Sources without merge keys. Where no mapping has the merge key, merging gives back the tree that it was
given, so that the switch for merge keys shows in no answer. -/
namespace ConfigModules

open Yaml Yaml.Tree Yaml.Merge

namespace Yaml.Tree

/-- No mapping among the parts of a tree has the merge key. Keys are no parts, tags do not stand between. -/
def MergeFree (t : Tree) : Prop :=
  ∀ entries, t.Reaches (.mapping entries) → ∀ e ∈ entries, e.1 ≠ mergeKey

theorem mergeFree_sequence_iff {items : List Tree} :
    (sequence items).MergeFree ↔ ∀ t ∈ items, t.MergeFree := by
  constructor
  · intro h t ht entries hreach
    exact h entries (.item ht hreach)
  · intro h entries hreach
    cases hreach with
    | item ht hreach => exact h _ ht entries hreach

theorem mergeFree_tagged_iff {tag : String} {t : Tree} : (tagged tag t).MergeFree ↔ t.MergeFree := by
  constructor
  · intro h entries hreach
    exact h entries (.content hreach)
  · intro h entries hreach
    cases hreach with
    | content hreach => exact h entries hreach

theorem mergeFree_mapping_iff {entries : List (Tree × Tree)} :
    (mapping entries).MergeFree ↔ ∀ e ∈ entries, e.1 ≠ mergeKey ∧ e.2.MergeFree := by
  constructor
  · intro h e he
    exact ⟨h entries (.here _) e he, fun inner hreach => h inner (.value he hreach)⟩
  · intro h inner hreach
    cases hreach with
    | here => exact fun e he => (h e he).1
    | value he hreach => exact (h _ he).2 inner hreach

theorem mergeFree_string (s : String) : (string s).MergeFree := by
  intro entries hreach
  cases hreach

/-- A mapping without the merge key has nothing to merge, and its entries stay where they are. -/
theorem mergedOutcomes_of_no_key {entries : List (Tree × Tree)} (h : ∀ e ∈ entries, e.1 ≠ mergeKey) :
    Merges entries [] ∧ mergedOutcomes entries [] = entries.map fun e => (e.1, e.2.merged) := by
  have hother : ∀ e ∈ entries, isMergeKey e.1 = false := by
    intro e he
    exact Bool.eq_false_iff.mpr (mt isMergeKey_iff.mp (h e he))
  have hown : ownEntries entries = entries.map fun e => (e.1, e.2.merged) := by
    rw [ownEntries_eq]
    refine List.map_congr_left fun e he => ?_
    rw [hother e he, if_neg Bool.false_ne_true]
  constructor
  · refine .nothing (valueAt?_eq_none_iff.mpr fun e he => ?_)
    rw [← isMergeKey_eq]
    exact hother e he
  · have hkeys : ∀ f ∈ ownEntries entries, isMergeKey f.1 = false := by
      rw [hown]
      exact List.forall_mem_map.mpr hother
    rw [mergedOutcomes, List.map_nil, List.foldl_nil, takeOut_of_no_key hkeys, hown]

theorem MergeFree.merged {t : Tree} (h : t.MergeFree) : t.merged = .ok t := by
  induction t using induct with
  | null => rfl
  | boolean b => rfl
  | number n => rfl
  | string s => rfl
  | sequence items ih =>
    have hitems := mergeFree_sequence_iff.mp h
    exact merged_sequence_ok_iff.mpr ⟨items, rfl, List.forall₂_same.mpr fun t ht => ih t ht (hitems t ht)⟩
  | mapping entries ih =>
    have hentries := mergeFree_mapping_iff.mp h
    obtain ⟨hmerges, hout⟩ := mergedOutcomes_of_no_key fun e he => (hentries e he).1
    refine merged_mapping_ok_iff.mpr ⟨[], entries, hmerges, rfl, hout.trans ?_⟩
    exact List.map_congr_left fun e he => congrArg (Prod.mk e.1) ((ih e he).2 (hentries e he).2)
  | tagged tag t ih => exact merged_tagged_ok_iff.mpr ⟨t, rfl, ih (mergeFree_tagged_iff.mp h)⟩

end Yaml.Tree

theorem loadTree_mergeFree {d : Document} (h : ∀ t, d.tree = .ok t → t.MergeFree) :
    loadTree true d = loadTree false d := by
  rw [loadTree, loadTree]
  cases hd : d.tree with
  | error e => rfl
  | ok t =>
    show t.merged.mapError LoadFault.merge = _
    rw [(h t hd).merged]
    rfl

theorem loadTrees_mergeFree {documents : List Document}
    (h : ∀ d ∈ documents, ∀ t, d.tree = .ok t → t.MergeFree) :
    loadTrees true documents = loadTrees false documents := by
  induction documents with
  | nil => rfl
  | cons d ds ih =>
    obtain ⟨hd, hds⟩ := List.forall_mem_cons.mp h
    rw [loadTrees, loadTrees, loadTree_mergeFree hd, ih hds]

/-- Merge keys are resolved without effect where there are none: under both policies the answer is the same,
be it a value with the order of all its entries, or a fault with its message and its place. -/
theorem merging_inert_without_keys (policy : MultiDocument) {source : String}
    (h : ∀ d ∈ documentsOf source, ∀ t, d.tree = .ok t → t.MergeFree) :
    decode ⟨policy, true⟩ source = decode ⟨policy, false⟩ source := by
  rw [decode_eq, decode_eq, loadTrees_mergeFree h]

/-- The text of the merge key as a value, a part of it as a key, and all of it as a key under a tag. -/
theorem merging_inert_of_lookalikes :
    (∀ d ∈ documentsOf "a: &x !t {<: <<}\nb: [*x, {!u <<: c}]", ∀ t, d.tree = .ok t → t.MergeFree) ∧
      ∀ mergeKeys, decode ⟨.reject, mergeKeys⟩ "a: &x !t {<: <<}\nb: [*x, {!u <<: c}]" =
        .ok (.mapping [("a", .mapping [("<", .string "<<")]),
          ("b", .sequence [.mapping [("<", .string "<<")], .mapping [("<<", .string "c")]])]) := by
  obtain ⟨d, hd, ht⟩ : ∃ d, documentsOf "a: &x !t {<: <<}\nb: [*x, {!u <<: c}]" = [d] ∧
      d.tree = .ok (.mapping [(.string "a", .tagged "t" (.mapping [(.string "<", .string "<<")])),
        (.string "b", .sequence [.tagged "t" (.mapping [(.string "<", .string "<<")]),
          .mapping [(.tagged "u" (.string "<<"), .string "c")]])]) := ⟨_, rfl, rfl⟩
  have hsource : ∀ d ∈ documentsOf "a: &x !t {<: <<}\nb: [*x, {!u <<: c}]",
      ∀ t, d.tree = .ok t → t.MergeFree := by
    rw [hd, List.forall_mem_singleton, ht]
    intro t ht
    obtain rfl := Except.ok.inj ht
    simp [mergeFree_mapping_iff, mergeFree_sequence_iff, mergeFree_tagged_iff, mergeFree_string, mergeKey]
  have hplain := decode_single hd (loadTree_plain_ok_iff.mpr ht) rfl
  refine ⟨hsource, ?_⟩
  rintro (_ | _)
  · exact hplain
  · exact (merging_inert_without_keys .reject hsource).trans hplain

end ConfigModules
