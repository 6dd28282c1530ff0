import ConfigModules.Proofs.DocumentTree
import ConfigModules.Proofs.Yaml.MergeLoop

/-! Which entry wins in a merge. A mapping's own entries stand before those of the mappings it merges,
of these the first stands before the next, and what cannot be merged fails the whole source. -/
namespace ConfigModules

open Yaml Yaml.Tree Yaml.Merge

namespace Yaml

/-- How a merged mapping gets its entries from its own and from those of its sources, the merge key
apart. -/
structure Overrides (entries : List (Tree × Tree)) (sources : List (List (Tree × Tree)))
    (out : List (Tree × Tree)) : Prop where
  hasKey_iff : ∀ k, k.KeysDistinct → isMergeKey k = false →
    (hasKey k out = true ↔ hasKey k entries = true ∨ ∃ source ∈ sources, hasKey k source = true)
  own : ∀ k v, k.KeysDistinct → isMergeKey k = false → valueAt? k entries = some v →
    ∃ w, v.merged = .ok w ∧ valueAt? k out = some w
  /-- The first source with the key counts. -/
  inherited : ∀ k v, k.KeysDistinct → isMergeKey k = false → hasKey k entries = false →
    sources.findSome? (valueAt? k) = some v → ∃ w, v.merged = .ok w ∧ valueAt? k out = some w
  only : ∀ e ∈ out, isMergeKey e.1 = true ∨ hasKey e.1 entries = true ∨
    ∃ source ∈ sources, hasKey e.1 source = true
  distinct : EntriesDistinct out

/-- A mapping becomes the one that has its own entries before those of its sources. -/
def Overriding (entries out : List (Tree × Tree)) : Prop :=
  ∃ sources, Merges entries sources ∧ Overrides entries sources out

theorem overrides_merged {entries out : List (Tree × Tree)} {sources : List (List (Tree × Tree))}
    (h : (Tree.mapping entries).KeysDistinct) (hmerges : Merges entries sources)
    (hout : mergedOutcomes entries sources = out.map fun e => (e.1, Except.ok e.2)) :
    Overrides entries sources out := by
  have hdistinct := entriesDistinct_merged h hmerges hout
  refine ⟨?hasKey, ?own, ?inherited, ?only, hdistinct⟩
  case hasKey =>
    intro k hk hkey
    rw [hasKey_merged_iff h hout hk, hkey, eq_self, true_and]
  case own =>
    intro k v hk hkey hv
    exact exists_of_heldAt? h hout hk (heldAt?_own sources hkey hv)
  case inherited =>
    intro k v hk _ hmissing hv
    rw [hasKey_eq, Option.isSome_eq_false_iff, Option.isNone_iff_eq_none] at hmissing
    exact exists_of_heldAt? h hout hk (heldAt?_inherited (.inr hmissing) hv)
  case only =>
    intro e he
    have hself := (hasKey_merged_iff h hout (hdistinct.keys e he)).mp (hasKey_of_mem he)
    rcases hself with ⟨_, hown⟩ | hsource
    · exact .inr (.inl hown)
    · exact .inr (.inr hsource)

theorem overriding_of_merged {t t' : Tree} (h : t.KeysDistinct) (ht : t.merged = .ok t') :
    MergesInto Overriding t t' := by
  cases mergesInto_of_merged ht with
  | null => exact .null
  | boolean b => exact .boolean b
  | number n => exact .number n
  | string s => exact .string s
  | sequence hitems => exact .sequence hitems
  | mapping hentries =>
    obtain ⟨sources, hmerges, hout⟩ := hentries
    exact .mapping ⟨sources, hmerges, overrides_merged h hmerges hout⟩
  | tagged tag hcontent => exact .tagged tag hcontent

/-- What stands under a merge key and cannot be merged. -/
theorem not_merges {entries : List (Tree × Tree)} {v : Tree} (hv : valueAt? mergeKey entries = some v)
    (hmapping : ∀ source, v ≠ .mapping source)
    (hsequence : ∀ sources : List (List (Tree × Tree)), v ≠ .sequence (sources.map Tree.mapping))
    (sources : List (List (Tree × Tree))) : ¬Merges entries sources := by
  intro h
  cases h with
  | nothing h => simp [h] at hv
  | one h => exact hmapping _ (Option.some.inj (hv.symm.trans h))
  | several h => exact hsequence _ (Option.some.inj (hv.symm.trans h))

end Yaml

/-- A fault of merging ends the decoding and has no place. -/
theorem decode_of_merge_fault (policy : MultiDocument) {source : String} {before after : List Document}
    {d : Document} {trees : List Tree} {t : Tree} (hdocuments : documentsOf source = before ++ d :: after)
    (hbefore : loadTrees true before = .ok trees) (ht : d.tree = .ok t) (hfault : ∀ t', t.merged ≠ .ok t') :
    ∃ fault, decode ⟨policy, true⟩ source = .error (.malformed (.merge fault)) := by
  cases hmerged : t.merged with
  | ok t' => exact absurd hmerged (hfault t')
  | error fault =>
    have hd : loadTree true d = .error (.merge fault) := by
      rw [loadTree, ht]
      simp [hmerged, Except.mapError]
    refine ⟨fault, ?_⟩
    rw [decode_eq, hdocuments, loadTrees_of_fault hbefore hd]

/-- Precedence in a merge. Decoding with merge keys merges the tree of each document; where that
succeeds, every node visited becomes what its parts say, a mapping with its own entries before those of
its sources and of these the first. The loop that visits one place after another ends with the merged tree
or with the fault of the merge, and no other way. A visited mapping with anything else under its merge key
than a mapping or a sequence of mappings fails the source with a fault that has no place. -/
theorem merge_precedence :
    (∀ d t', loadTree true d = .ok t' ↔
      ∃ t : Tree, d.tree = .ok t ∧ t.KeysDistinct ∧ t.merged = .ok t') ∧
    (∀ t t' m : Tree, t.KeysDistinct → t.merged = .ok t' → t.Visited m →
      ∃ m', m.merged = .ok m' ∧ t'.Reaches m' ∧ MergesInto Overriding m m') ∧
    (∀ (t : Tree) (outcome : Outcome), t.KeysDistinct → (Ends [[]] t outcome ↔ t.merged = outcome)) ∧
    ∀ (policy : MultiDocument) (source : String) (before after : List Document) (d : Document)
      (trees : List Tree) (t : Tree) (entries : List (Tree × Tree)) (v : Tree),
      documentsOf source = before ++ d :: after → loadTrees true before = .ok trees → d.tree = .ok t →
      t.Visited (.mapping entries) → valueAt? mergeKey entries = some v →
      (∀ source, v ≠ .mapping source) →
      (∀ sources : List (List (Tree × Tree)), v ≠ .sequence (sources.map Tree.mapping)) →
      ∃ fault, decode ⟨policy, true⟩ source = .error (.malformed fault) ∧
        (DecodeError.malformed fault).location? = none := by
  refine ⟨?loads, ?visits, ?loop, ?fails⟩
  case loads =>
    intro d t'
    rw [loadTree_merging_ok_iff]
    constructor
    · rintro ⟨t, ht, hmerged⟩
      exact ⟨t, ht, Document.keysDistinct_tree ht, hmerged⟩
    · rintro ⟨t, ht, _, hmerged⟩
      exact ⟨t, ht, hmerged⟩
  case visits =>
    intro t t' m h ht hvisited
    obtain ⟨m', hm', hreach⟩ := hvisited.exists_merged h ht
    exact ⟨m', hm', hreach, overriding_of_merged (hvisited.keysDistinct h) hm'⟩
  case loop => exact fun t outcome => ends_iff
  case fails =>
    intro policy source before after d trees t entries v hdocuments hbefore ht hvisited hv hmapping hsequence
    have hfault : ∀ t', t.merged ≠ .ok t' := by
      intro t' hmerged
      obtain ⟨m', hm', _⟩ := hvisited.exists_merged (Document.keysDistinct_tree ht) hmerged
      obtain ⟨sources, _, hmerges, _⟩ := merged_mapping_ok_iff.mp hm'
      exact not_merges hv hmapping hsequence sources hmerges
    obtain ⟨fault, hdecode⟩ := decode_of_merge_fault policy hdocuments hbefore ht hfault
    exact ⟨.merge fault, hdecode, rfl⟩

/-- An own entry before two sources, and a text under the merge key of an element. -/
theorem merge_of_two_sources :
    (∃ d entries out, documentsOf "a: x\n<<: [{a: y, b: y}, {b: z, c: z}]" = [d] ∧
      d.tree = .ok (.mapping entries) ∧
      out = Tree.mapping
        [(.string "a", .string "x"), (.string "b", .string "y"), (.string "c", .string "z")] ∧
      MergesInto Overriding (.mapping entries) out ∧ Ends [[]] (.mapping entries) (.ok out)) ∧
    ∃ fault, decode ⟨.reject, true⟩ "- a: x\n  <<: y" = .error (.malformed fault) ∧
      (DecodeError.malformed fault).location? = none := by
  obtain ⟨loads, visits, loop, fails⟩ := merge_precedence
  constructor
  · obtain ⟨d, entries, hd, ht, hmerged⟩ : ∃ d entries,
        documentsOf "a: x\n<<: [{a: y, b: y}, {b: z, c: z}]" = [d] ∧
        d.tree = .ok (.mapping entries) ∧ (Tree.mapping entries).merged = .ok (.mapping
          [(.string "a", .string "x"), (.string "b", .string "y"), (.string "c", .string "z")]) :=
      ⟨_, [(.string "a", .string "x"), (mergeKey, .sequence
        [.mapping [(.string "a", .string "y"), (.string "b", .string "y")],
          .mapping [(.string "b", .string "z"), (.string "c", .string "z")]])], rfl, rfl, rfl⟩
    obtain ⟨t, ht', hkeys, _⟩ := (loads d _).mp (loadTree_merging_ok_iff.mpr ⟨_, ht, hmerged⟩)
    obtain rfl : Tree.mapping entries = t := Except.ok.inj (ht.symm.trans ht')
    obtain ⟨m', hm', _, hoverriding⟩ := visits _ _ _ hkeys hmerged (.here _)
    rw [hmerged] at hm'
    cases hm'
    exact ⟨d, entries, _, hd, ht, rfl, hoverriding, (loop _ _ hkeys).mpr hmerged⟩
  · obtain ⟨d, hd, ht⟩ : ∃ d, documentsOf "- a: x\n  <<: y" = [d] ∧
        d.tree = .ok (.sequence [.mapping [(.string "a", .string "x"), (mergeKey, .string "y")]]) :=
      ⟨_, rfl, rfl⟩
    have hvisited : (Tree.sequence [.mapping [(.string "a", .string "x"),
        (mergeKey, .string "y")]]).Visited (.mapping [(.string "a", .string "x"), (mergeKey, .string "y")]) :=
      .item List.mem_cons_self (.here _)
    refine fails .reject _ [] [] d [] _ _ (.string "y") hd rfl ht hvisited rfl ?_ ?_
    · intro source h
      cases h
    · intro sources h
      cases h

end ConfigModules
