import ConfigModules.Proofs.DocumentTree
import ConfigModules.Proofs.Position

/-! Merge keys that are left. A mapping takes the entries of its sources as they are, a merge key among
them too, so that merging can leave the name of the merge key in a value. Where it does is told by the
mappings that it visits. -/
namespace ConfigModules

open Yaml Yaml.Tree Yaml.Merge

/-- Some mapping of a value, at any depth, has the name of the merge key. -/
def Value.NamesMergeKey (v : Value) : Prop :=
  ∃ p fields, v.at? p = some (.mapping fields) ∧ "<<" ∈ fields.map Prod.fst

namespace Yaml

/-- The names that a mapping has when it is merged: those of its own entries but the merge entry, and
all names of its sources. -/
def TakesName (name : String) (entries : List (Tree × Tree)) (sources : List (List (Tree × Tree))) : Prop :=
  (∃ e ∈ entries, isMergeKey e.1 = false ∧ e.1.keyName? = some name) ∨
    ∃ source ∈ sources, ∃ e ∈ source, e.1.keyName? = some name

theorem exists_named {k : Tree} {entries : List (Tree × Tree)} {name : String}
    (hk : hasKey k entries = true) (hname : k.keyName? = some name) :
    ∃ e ∈ entries, k.same e.1 = true ∧ e.1.keyName? = some name := by
  obtain ⟨e, he, hke⟩ := hasKey_iff.mp hk
  exact ⟨e, he, hke, keyName?_of_same hke ▸ hname⟩

theorem takesName_iff {entries out : List (Tree × Tree)} {sources : List (List (Tree × Tree))}
    (h : (Tree.mapping entries).KeysDistinct) (hmerges : Merges entries sources)
    (hout : mergedOutcomes entries sources = out.map fun e => (e.1, Except.ok e.2)) {name : String} :
    TakesName name entries sources ↔ ∃ e ∈ out, e.1.keyName? = some name := by
  have hdistinct := entriesDistinct_merged h hmerges hout
  constructor
  · intro htakes
    -- the key of the entry is a key of the merged mapping
    have hkey : ∃ k : Tree, k.keyName? = some name ∧ hasKey k out = true := by
      rcases htakes with ⟨e, he, hown, hname⟩ | ⟨source, hsource, e, he, hname⟩
      · have hkeys := h.entries.keys e he
        exact ⟨e.1, hname, (hasKey_merged_iff h hout hkeys).mpr (.inl ⟨hown, hasKey_of_mem he⟩)⟩
      · have hkeys := (keysDistinct_of_merges hmerges h source hsource).entries.keys e he
        exact ⟨e.1, hname,
          (hasKey_merged_iff h hout hkeys).mpr (.inr ⟨source, hsource, hasKey_of_mem he⟩)⟩
    obtain ⟨k, hname, hk⟩ := hkey
    obtain ⟨e, he, _, hname⟩ := exists_named hk hname
    exact ⟨e, he, hname⟩
  · rintro ⟨e, he, hname⟩
    have hself := (hasKey_merged_iff h hout (hdistinct.keys e he)).mp (hasKey_of_mem he)
    rcases hself with ⟨hother, hown⟩ | ⟨source, hsource, hfound⟩
    · obtain ⟨f, hf, hef, hname⟩ := exists_named hown hname
      exact .inl ⟨f, hf, isMergeKey_of_same hef hother, hname⟩
    · obtain ⟨f, hf, _, hname⟩ := exists_named hfound hname
      exact .inr ⟨source, hsource, f, hf, hname⟩

/-- The value of a merged tree has the name where a visited mapping takes it. -/
theorem namesMergeKey_iff {t t' : Tree} {v : Value} (h : t.KeysDistinct) (ht : t.merged = .ok t')
    (hvalue : t'.HasValue v) (hv : v.KeysDistinct) :
    v.NamesMergeKey ↔ ∃ entries sources, t.Visited (.mapping entries) ∧ Merges entries sources ∧
      TakesName "<<" entries sources := by
  constructor
  · rintro ⟨p, fields, hp, hname⟩
    obtain ⟨out, hreach, hfields⟩ := exists_reaches hvalue hp
    obtain ⟨f, hf, hfname⟩ := List.mem_map.mp hname
    obtain ⟨e, he, hename, _⟩ := exists_mem_left hfields hf
    obtain ⟨m, hvisited, hm⟩ := hreach.exists_visited h ht
    cases mergesInto_of_merged hm with
    | mapping hentries =>
      obtain ⟨sources, hmerges, hout⟩ := hentries
      refine ⟨_, _, hvisited, hmerges, (takesName_iff (hvisited.keysDistinct h) hmerges hout).mpr ?_⟩
      exact ⟨e, he, hfname ▸ hename⟩
  · rintro ⟨entries, sources, hvisited, hmerges, htakes⟩
    obtain ⟨m', hm', hreach⟩ := hvisited.exists_merged h ht
    obtain ⟨sources', out, hmerges', rfl, hout⟩ := merged_mapping_ok_iff.mp hm'
    obtain rfl := merges_unique hmerges hmerges'
    obtain ⟨e, he, hename⟩ := (takesName_iff (hvisited.keysDistinct h) hmerges hout).mp htakes
    obtain ⟨p, u, hp, hu⟩ := exists_position hreach hvalue hv
    obtain ⟨fields, rfl, hfields⟩ := hasValue_mapping_iff.mp hu
    obtain ⟨f, hf, hfname, _⟩ := exists_mem_right hfields he
    rw [hename, Option.some.injEq] at hfname
    exact ⟨p, fields, hp, hfname ▸ List.mem_map_of_mem hf⟩

end Yaml

/-- When the name of the merge key is left in a value that was decoded with merge keys: some mapping that
was visited merges a mapping with that name, or has it under a tag, where it is no merge key. -/
theorem merge_key_left_iff {policy : MultiDocument} {source : String} {v : Value}
    (h : decode ⟨policy, true⟩ source = .ok v) :
    ∃ t, sourceTree policy source = .ok t ∧
      (v.NamesMergeKey ↔ ∃ entries sources, t.Visited (.mapping entries) ∧ Merges entries sources ∧
        TakesName "<<" entries sources) := by
  obtain ⟨t, t', hsource, ht, hmerged, hvalue⟩ := exists_tree_of_merging h
  exact ⟨t, hsource, namesMergeKey_iff ht hmerged hvalue (keysDistinct_decode h)⟩

theorem decode_nested_merge : decode ⟨.reject, true⟩ "<<: {<<: {a: x}}" =
    .ok (.mapping [("<<", .mapping [("a", .string "x")])]) := by
  obtain ⟨d, hd, ht⟩ : ∃ d, documentsOf "<<: {<<: {a: x}}" = [d] ∧ d.tree = .ok (.mapping [(mergeKey,
      .mapping [(mergeKey, .mapping [(.string "a", .string "x")])])]) := ⟨_, rfl, rfl⟩
  exact decode_single hd (loadTree_merging_ok_iff.mpr ⟨_, ht, rfl⟩) rfl

/-- A merge inside a merged mapping is left as it is. -/
theorem nested_merge_left :
    decode ⟨.reject, true⟩ "<<: {<<: {a: x}}" = .ok (.mapping [("<<", .mapping [("a", .string "x")])]) ∧
      ¬∀ policy source v, decode ⟨policy, true⟩ source = .ok v → ¬v.NamesMergeKey := by
  refine ⟨decode_nested_merge, fun h => ?_⟩
  exact h _ _ _ decode_nested_merge ⟨[], _, rfl, List.mem_cons_self⟩

theorem merge_key_left_of_nested :
    ∃ t v, sourceTree .reject "<<: {<<: {a: x}}" = .ok t ∧
      decode ⟨.reject, true⟩ "<<: {<<: {a: x}}" = .ok v ∧
      ∃ entries sources, t.Visited (.mapping entries) ∧ Merges entries sources ∧
        TakesName "<<" entries sources := by
  obtain ⟨t, ht, hleft⟩ := merge_key_left_iff decode_nested_merge
  exact ⟨t, _, ht, decode_nested_merge, hleft.mp ⟨[], _, rfl, List.mem_cons_self⟩⟩

end ConfigModules
