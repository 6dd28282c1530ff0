import ConfigModules.Proofs.Yaml.Merge

/-! Merged trees. What a merge does at a node is told by its parts, and all parts that it visits are
merged in turn. -/
namespace ConfigModules.Yaml

open Tree Merge

namespace Merge

theorem allItems_ok_iff {xs : List Outcome} {ts : List Tree} :
    allItems xs = .ok ts ↔ xs = ts.map Except.ok := by
  induction xs generalizing ts with
  | nil =>
    rw [allItems, Except.ok.injEq, eq_comm, eq_comm (a := []), List.map_eq_nil_iff]
  | cons x xs ih =>
    constructor
    · intro h
      obtain ⟨us, hus, h⟩ := exists_of_bind_eq_ok h
      obtain ⟨u, rfl, h⟩ := exists_of_bind_eq_ok h
      obtain rfl : u :: us = ts := Except.ok.inj h
      rw [List.map_cons, ← ih.mp hus]
    · intro h
      cases ts with
      | nil => cases h
      | cons u us =>
        obtain ⟨rfl, hxs⟩ := List.cons.inj h
        rw [allItems, ih.mpr hxs]
        rfl

theorem allEntries_ok_iff {xs : List (Tree × Outcome)} {es : List (Tree × Tree)} :
    allEntries xs = .ok es ↔ xs = es.map fun e => (e.1, Except.ok e.2) := by
  induction xs generalizing es with
  | nil =>
    rw [allEntries, Except.ok.injEq, eq_comm, eq_comm (a := []), List.map_eq_nil_iff]
  | cons x xs ih =>
    obtain ⟨k, x⟩ := x
    constructor
    · intro h
      obtain ⟨us, hus, h⟩ := exists_of_bind_eq_ok h
      obtain ⟨u, rfl, h⟩ := exists_of_bind_eq_ok h
      obtain rfl : (k, u) :: us = es := Except.ok.inj h
      rw [List.map_cons, ← ih.mp hus]
    · intro h
      cases es with
      | nil => cases h
      | cons u us =>
        obtain ⟨hx, hxs⟩ := List.cons.inj h
        cases hx
        rw [allEntries, ih.mpr hxs]
        rfl

end Merge

theorem mergedItems_eq (items : List Tree) : mergedItems items = items.map Tree.merged := by
  induction items with
  | nil => rfl
  | cons t ts ih => rw [mergedItems, ih, List.map_cons]

theorem mergedEntries_eq (entries : List (Tree × Tree)) :
    mergedEntries entries = entries.map fun e => (e.1, e.2.merged) := by
  induction entries with
  | nil => rfl
  | cons e es ih => rw [mergedEntries, ih, List.map_cons]

theorem ownEntries_eq (entries : List (Tree × Tree)) :
    ownEntries entries =
      entries.map fun e => (e.1, if isMergeKey e.1 then .ok .null else e.2.merged) := by
  induction entries with
  | nil => rfl
  | cons e es ih => rw [ownEntries, ih, List.map_cons]

theorem mergeSources_eq (entries : List (Tree × Tree)) :
    mergeSources entries = match valueAt? mergeKey entries with
      | none => .ok []
      | some v => sourcesOf v := by
  induction entries with
  | nil => rfl
  | cons e es ih =>
    rw [mergeSources, valueAt?_cons, ← isMergeKey_eq]
    split_ifs
    · rfl
    · exact ih

theorem elementSources_ok_iff {items : List Tree} {found : List (List (Tree × Outcome))} :
    elementSources items = .ok found ↔
      ∃ sources : List (List (Tree × Tree)),
        items = sources.map Tree.mapping ∧ found = sources.map mergedEntries := by
  induction items generalizing found with
  | nil =>
    constructor
    · intro h
      obtain rfl : [] = found := Except.ok.inj h
      exact ⟨[], rfl, rfl⟩
    · rintro ⟨sources, hsources, rfl⟩
      obtain rfl : sources = [] := List.map_eq_nil_iff.mp hsources.symm
      rfl
  | cons t ts ih =>
    constructor
    · intro h
      cases t with
      | mapping entries =>
        obtain ⟨more, hmore, h⟩ := exists_of_bind_eq_ok h
        obtain rfl : mergedEntries entries :: more = found := Except.ok.inj h
        obtain ⟨sources, rfl, rfl⟩ := ih.mp hmore
        exact ⟨entries :: sources, rfl, rfl⟩
      | _ => cases h
    · rintro ⟨sources, hsources, rfl⟩
      cases sources with
      | nil => cases hsources
      | cons entries sources =>
        obtain ⟨rfl, hts⟩ := List.cons.inj hsources
        rw [elementSources, ih.mpr ⟨sources, hts, rfl⟩]
        rfl

/-- The sources are found exactly where a mapping has some to merge, or none and no merge key. -/
theorem mergeSources_ok_iff {entries : List (Tree × Tree)} {found : List (List (Tree × Outcome))} :
    mergeSources entries = .ok found ↔
      ∃ sources, Merges entries sources ∧ found = sources.map mergedEntries := by
  rw [mergeSources_eq]
  constructor
  · intro h
    cases hvalue : valueAt? mergeKey entries with
    | none =>
      rw [hvalue] at h
      cases h
      exact ⟨[], .nothing hvalue, rfl⟩
    | some v =>
      rw [hvalue] at h
      cases v with
      | mapping source =>
        cases h
        exact ⟨[source], .one hvalue, rfl⟩
      | sequence items =>
        obtain ⟨sources, rfl, rfl⟩ := elementSources_ok_iff.mp h
        exact ⟨sources, .several hvalue, rfl⟩
      | _ => cases h
  · rintro ⟨sources, hmerges, rfl⟩
    cases hmerges with
    | nothing hvalue =>
      rw [hvalue]
      rfl
    | one hvalue =>
      rw [hvalue]
      rfl
    | several hvalue =>
      rw [hvalue]
      exact elementSources_ok_iff.mpr ⟨_, rfl, rfl⟩

theorem merged_sequence_ok_iff {items : List Tree} {t' : Tree} :
    (Tree.sequence items).merged = .ok t' ↔ ∃ items', t' = .sequence items' ∧
      List.Forall₂ (fun t t' => t.merged = .ok t') items items' := by
  have hall : ∀ items', List.Forall₂ (fun t t' => t.merged = .ok t') items items' ↔
      items.map Tree.merged = items'.map Except.ok := by
    intro items'
    rw [← List.forall₂_eq_eq_eq, List.forall₂_map_left_iff, List.forall₂_map_right_iff]
  simp only [hall, ← mergedItems_eq, ← allItems_ok_iff]
  constructor
  · intro h
    obtain ⟨items', hitems, h⟩ := exists_of_bind_eq_ok h
    exact ⟨items', (Except.ok.inj h).symm, hitems⟩
  · rintro ⟨items', rfl, hitems⟩
    rw [merged, hitems]
    rfl

theorem merged_tagged_ok_iff {tag : String} {t t' : Tree} :
    (Tree.tagged tag t).merged = .ok t' ↔ ∃ u, t' = .tagged tag u ∧ t.merged = .ok u := by
  constructor
  · intro h
    obtain ⟨u, hu, h⟩ := exists_of_bind_eq_ok h
    exact ⟨u, (Except.ok.inj h).symm, hu⟩
  · rintro ⟨u, rfl, hu⟩
    rw [merged, hu]
    rfl

/-- The entries of a merged mapping before their values are looked at. -/
def mergedOutcomes (entries : List (Tree × Tree)) (sources : List (List (Tree × Tree))) :
    List (Tree × Outcome) :=
  (sources.map mergedEntries).foldl addMissing (takeOut (ownEntries entries))

theorem merged_mapping_ok_iff {entries : List (Tree × Tree)} {t' : Tree} :
    (Tree.mapping entries).merged = .ok t' ↔ ∃ sources out, Merges entries sources ∧
      t' = .mapping out ∧ mergedOutcomes entries sources = out.map fun e => (e.1, Except.ok e.2) := by
  constructor
  · intro h
    obtain ⟨found, hfound, h⟩ := exists_of_bind_eq_ok h
    obtain ⟨sources, hsources, rfl⟩ := mergeSources_ok_iff.mp hfound
    obtain ⟨out, hout, h⟩ := exists_of_bind_eq_ok h
    exact ⟨sources, out, hsources, (Except.ok.inj h).symm, allEntries_ok_iff.mp hout⟩
  · rintro ⟨sources, out, hsources, rfl, hout⟩
    rw [merged, mergeSources_ok_iff.mpr ⟨sources, hsources, rfl⟩]
    have hentries := allEntries_ok_iff.mpr hout
    rw [mergedOutcomes] at hentries
    simp only [bind, Except.bind, Merge.mapping, hentries]
    rfl

/-- A merge of a node that succeeds, by the kind of the node; what becomes of the entries of a mapping is
told by `R`. -/
inductive MergesInto (R : List (Tree × Tree) → List (Tree × Tree) → Prop) : Tree → Tree → Prop
  | null : MergesInto R .null .null
  | boolean (b : Bool) : MergesInto R (.boolean b) (.boolean b)
  | number (n : Number) : MergesInto R (.number n) (.number n)
  | string (s : String) : MergesInto R (.string s) (.string s)
  | sequence {items items' : List Tree} :
      List.Forall₂ (fun t t' => t.merged = .ok t') items items' →
      MergesInto R (.sequence items) (.sequence items')
  | mapping {entries out : List (Tree × Tree)} :
      R entries out → MergesInto R (.mapping entries) (.mapping out)
  | tagged (tag : String) {t t' : Tree} :
      t.merged = .ok t' → MergesInto R (.tagged tag t) (.tagged tag t')

theorem mergesInto_of_merged {t t' : Tree} (h : t.merged = .ok t') :
    MergesInto (fun entries out => ∃ sources, Merges entries sources ∧
      mergedOutcomes entries sources = out.map fun e => (e.1, Except.ok e.2)) t t' := by
  cases t with
  | null =>
    cases h
    exact .null
  | boolean b =>
    cases h
    exact .boolean b
  | number n =>
    cases h
    exact .number n
  | string s =>
    cases h
    exact .string s
  | sequence items =>
    obtain ⟨items', rfl, hitems⟩ := merged_sequence_ok_iff.mp h
    exact .sequence hitems
  | mapping entries =>
    obtain ⟨sources, out, hmerges, rfl, hout⟩ := merged_mapping_ok_iff.mp h
    exact .mapping ⟨sources, hmerges, hout⟩
  | tagged tag content =>
    obtain ⟨u, rfl, hu⟩ := merged_tagged_ok_iff.mp h
    exact .tagged tag hu

/-! ## What a merged mapping holds -/

theorem keysDistinct_of_merges {entries : List (Tree × Tree)} {sources : List (List (Tree × Tree))}
    (h : Merges entries sources) (hentries : (Tree.mapping entries).KeysDistinct) :
    ∀ source ∈ sources, (Tree.mapping source).KeysDistinct := by
  have hvalue : ∀ v, valueAt? mergeKey entries = some v → v.KeysDistinct := by
    intro v hv
    obtain ⟨e, he, _, rfl⟩ := exists_of_valueAt? hv
    exact hentries.value he
  cases h with
  | nothing => exact List.forall_mem_nil _
  | one h => exact List.forall_mem_singleton.mpr (hvalue _ h)
  | several h =>
    cases hvalue _ h with
    | sequence hitems =>
      intro source hsource
      exact hitems _ (List.mem_map_of_mem hsource)

section Mapping

variable {entries out : List (Tree × Tree)} {sources : List (List (Tree × Tree))}

theorem entriesDistinct_ownEntries (h : (Tree.mapping entries).KeysDistinct) :
    EntriesDistinct (ownEntries entries) := by
  rw [ownEntries_eq]
  exact h.entries.map fun e => if isMergeKey e.1 then .ok .null else e.2.merged

theorem entriesDistinct_mergedOutcomes (h : (Tree.mapping entries).KeysDistinct)
    (hmerges : Merges entries sources) : EntriesDistinct (mergedOutcomes entries sources) := by
  refine entriesDistinct_addAll (entriesDistinct_takeOut (entriesDistinct_ownEntries h)) ?_
  intro found hfound e he
  obtain ⟨source, hsource, rfl⟩ := List.mem_map.mp hfound
  rw [mergedEntries_eq] at he
  obtain ⟨f, hf, rfl⟩ := List.mem_map.mp he
  exact (keysDistinct_of_merges hmerges h source hsource).entries.keys f hf

theorem valueAt?_ownEntries {k : Tree} (hk : isMergeKey k = false) :
    valueAt? k (ownEntries entries) = (valueAt? k entries).map merged := by
  rw [ownEntries_eq]
  induction entries with
  | nil => rfl
  | cons e es ih =>
    rw [List.map_cons, valueAt?_cons, valueAt?_cons, ih]
    by_cases hsame : k.same e.1 = true
    · have hother : ¬isMergeKey e.1 = true := Bool.eq_false_iff.mp (isMergeKey_of_same hsame hk)
      rw [if_pos hsame, if_pos hsame, if_neg hother, Option.map_some]
    · rw [if_neg hsame, if_neg hsame]

theorem valueAt?_mergedEntries {k : Tree} (source : List (Tree × Tree)) :
    valueAt? k (mergedEntries source) = (valueAt? k source).map merged := by
  rw [mergedEntries_eq, valueAt?_map]

/-- What a merged mapping holds under a key, before it is merged in turn: the merge key comes from the
sources alone. -/
def heldAt? (k : Tree) (entries : List (Tree × Tree)) (sources : List (List (Tree × Tree))) : Option Tree :=
  if isMergeKey k then sources.findSome? (valueAt? k)
  else (valueAt? k entries).or (sources.findSome? (valueAt? k))

theorem heldAt?_own (sources : List (List (Tree × Tree))) {k v : Tree} (hk : isMergeKey k = false)
    (hv : valueAt? k entries = some v) : heldAt? k entries sources = some v := by
  rw [heldAt?, if_neg (Bool.eq_false_iff.mp hk), hv, Option.some_or]

theorem heldAt?_inherited {k v : Tree} (hk : isMergeKey k = true ∨ valueAt? k entries = none)
    (hv : sources.findSome? (valueAt? k) = some v) : heldAt? k entries sources = some v := by
  rw [heldAt?]
  split_ifs with hkey
  · exact hv
  · rw [hk.resolve_left hkey, Option.none_or, hv]

theorem valueAt?_mergedOutcomes (h : (Tree.mapping entries).KeysDistinct) {k : Tree}
    (hk : k.KeysDistinct) :
    valueAt? k (mergedOutcomes entries sources) = (heldAt? k entries sources).map merged := by
  have hsources : (sources.map mergedEntries).findSome? (valueAt? k) =
      (sources.findSome? (valueAt? k)).map merged := by
    rw [List.findSome?_map, List.map_findSome?]
    congr 1
    funext source
    exact valueAt?_mergedEntries source
  rw [mergedOutcomes, valueAt?_addAll, valueAt?_takeOut (entriesDistinct_ownEntries h) hk, hsources,
    heldAt?]
  split_ifs with hkey
  · rfl
  · rw [valueAt?_ownEntries (Bool.eq_false_iff.mpr hkey), Option.map_or]

/-- The values of a merged mapping are those it holds, each merged in turn. -/
theorem valueAt?_merged (h : (Tree.mapping entries).KeysDistinct)
    (hout : mergedOutcomes entries sources = out.map fun e => (e.1, Except.ok e.2)) {k : Tree}
    (hk : k.KeysDistinct) :
    (valueAt? k out).map Except.ok = (heldAt? k entries sources).map merged := by
  rw [← valueAt?_map, ← hout, valueAt?_mergedOutcomes h hk]

theorem exists_of_heldAt? (h : (Tree.mapping entries).KeysDistinct)
    (hout : mergedOutcomes entries sources = out.map fun e => (e.1, Except.ok e.2)) {k v : Tree}
    (hk : k.KeysDistinct) (hv : heldAt? k entries sources = some v) :
    ∃ w, v.merged = .ok w ∧ valueAt? k out = some w := by
  have hmap := valueAt?_merged h hout hk
  rw [hv, Option.map_some, Option.map_eq_some_iff] at hmap
  obtain ⟨w, hw, hvw⟩ := hmap
  exact ⟨w, hvw.symm, hw⟩

theorem exists_heldAt? (h : (Tree.mapping entries).KeysDistinct)
    (hout : mergedOutcomes entries sources = out.map fun e => (e.1, Except.ok e.2)) {k w : Tree}
    (hk : k.KeysDistinct) (hw : valueAt? k out = some w) :
    ∃ v, heldAt? k entries sources = some v ∧ v.merged = .ok w := by
  have hmap := valueAt?_merged h hout hk
  rw [hw, Option.map_some, eq_comm, Option.map_eq_some_iff] at hmap
  exact hmap

/-- The keys of a merged mapping are its own and those of its sources. -/
theorem hasKey_merged_iff (h : (Tree.mapping entries).KeysDistinct)
    (hout : mergedOutcomes entries sources = out.map fun e => (e.1, Except.ok e.2)) {k : Tree}
    (hk : k.KeysDistinct) :
    hasKey k out = true ↔
      (isMergeKey k = false ∧ hasKey k entries = true) ∨ ∃ source ∈ sources, hasKey k source = true := by
  have hsome := congrArg Option.isSome (valueAt?_merged h hout hk)
  rw [Option.isSome_map, Option.isSome_map, heldAt?] at hsome
  cases hkey : isMergeKey k <;>
    simp [hasKey_eq, hsome, hkey, List.findSome?_isSome_iff]

theorem entriesDistinct_merged (h : (Tree.mapping entries).KeysDistinct) (hmerges : Merges entries sources)
    (hout : mergedOutcomes entries sources = out.map fun e => (e.1, Except.ok e.2)) :
    EntriesDistinct out := by
  have hdistinct := entriesDistinct_mergedOutcomes h hmerges
  rw [hout] at hdistinct
  constructor
  · exact (List.pairwise_map.mp hdistinct.apart).imp fun happart => happart
  · intro e he
    exact hdistinct.keys _ (List.mem_map_of_mem he)

theorem merges_unique {other : List (List (Tree × Tree))} (h : Merges entries sources)
    (h' : Merges entries other) : sources = other := by
  have hinj : Function.Injective Tree.mapping := fun _ _ => Tree.mapping.inj
  cases h with
  | nothing hv => cases h' <;> simp_all
  | one hv => cases h' <;> simp_all
  | several hv =>
    cases h' with
    | nothing hv' => simp_all
    | one hv' => simp_all
    | several hv' =>
      rw [hv, Option.some.injEq, Tree.sequence.injEq] at hv'
      exact hinj.list_map hv'

end Mapping

/-! ## What a merge visits -/

namespace Tree

/-- The parts of a tree that a merge visits: elements, contents under tags, the own values of mappings
but for the one under the merge key, and the values that a mapping takes from its sources. -/
inductive Visited : Tree → Tree → Prop
  | here (t : Tree) : Visited t t
  | item {items : List Tree} {t m : Tree} : t ∈ items → Visited t m → Visited (.sequence items) m
  | content {tag : String} {t m : Tree} : Visited t m → Visited (.tagged tag t) m
  | own {entries : List (Tree × Tree)} {e : Tree × Tree} {m : Tree} :
      e ∈ entries → isMergeKey e.1 = false → Visited e.2 m → Visited (.mapping entries) m
  | inherited {entries : List (Tree × Tree)} {sources : List (List (Tree × Tree))} {k v m : Tree} :
      Merges entries sources → k.KeysDistinct → isMergeKey k = true ∨ valueAt? k entries = none →
      sources.findSome? (valueAt? k) = some v → Visited v m → Visited (.mapping entries) m

theorem reaches_of_valueAt? {entries : List (Tree × Tree)} {k v m : Tree}
    (hv : valueAt? k entries = some v) (hreach : v.Reaches m) : (mapping entries).Reaches m := by
  obtain ⟨e, he, _, rfl⟩ := exists_of_valueAt? hv
  exact .value he hreach

section Visited

variable {entries : List (Tree × Tree)} {sources : List (List (Tree × Tree))} {t t' m : Tree}

/-- Whatever a merged mapping holds is visited. -/
theorem Visited.held {k v : Tree} (hmerges : Merges entries sources) (hk : k.KeysDistinct)
    (hv : heldAt? k entries sources = some v) (hvisited : v.Visited m) :
    (mapping entries).Visited m := by
  rw [heldAt?] at hv
  split_ifs at hv with hkey
  · exact .inherited hmerges hk (.inl hkey) hv hvisited
  · cases hown : valueAt? k entries with
    | some u =>
      obtain ⟨e, he, hsame, rfl⟩ := exists_of_valueAt? hown
      rw [hown, Option.some_or, Option.some.injEq] at hv
      have hother := isMergeKey_of_same hsame (Bool.eq_false_iff.mpr hkey)
      exact .own he hother (hv ▸ hvisited)
    | none =>
      rw [hown, Option.none_or] at hv
      exact .inherited hmerges hk (.inr hown) hv hvisited

theorem keysDistinct_inherited (h : (mapping entries).KeysDistinct) (hmerges : Merges entries sources)
    {k v : Tree} (hv : sources.findSome? (valueAt? k) = some v) : v.KeysDistinct := by
  obtain ⟨source, hsource, hfound⟩ := List.exists_of_findSome?_eq_some hv
  obtain ⟨e, he, _, rfl⟩ := exists_of_valueAt? hfound
  exact (keysDistinct_of_merges hmerges h source hsource).value he

theorem Visited.keysDistinct (hvisited : t.Visited m) (h : t.KeysDistinct) : m.KeysDistinct := by
  induction hvisited with
  | here => exact h
  | item ht _ ih =>
    cases h with
    | sequence hitems => exact ih (hitems _ ht)
  | content _ ih =>
    cases h with
    | tagged _ h => exact ih h
  | own he _ _ ih => exact ih (h.value he)
  | inherited hmerges _ _ hv _ ih => exact ih (keysDistinct_inherited h hmerges hv)

/-- A merge that succeeds has merged all that it visited, and the results are parts of its own. -/
theorem Visited.exists_merged (hvisited : t.Visited m) (h : t.KeysDistinct) (ht : t.merged = .ok t') :
    ∃ m', m.merged = .ok m' ∧ t'.Reaches m' := by
  induction hvisited generalizing t' with
  | here => exact ⟨t', ht, .here t'⟩
  | item hmem _ ih =>
    cases h with
    | sequence hitems =>
      obtain ⟨items', rfl, hmerged⟩ := merged_sequence_ok_iff.mp ht
      obtain ⟨u, hu, hmu⟩ := exists_mem_right hmerged hmem
      obtain ⟨m', hm', hreach⟩ := ih (hitems _ hmem) hmu
      exact ⟨m', hm', .item hu hreach⟩
  | content _ ih =>
    cases h with
    | tagged _ h =>
      obtain ⟨u, rfl, hu⟩ := merged_tagged_ok_iff.mp ht
      obtain ⟨m', hm', hreach⟩ := ih h hu
      exact ⟨m', hm', .content hreach⟩
  | own he hkey _ ih =>
    obtain ⟨sources, out, _, rfl, hout⟩ := merged_mapping_ok_iff.mp ht
    have hheld := heldAt?_own sources hkey (valueAt?_of_mem h.entries he)
    obtain ⟨w, hw, hfound⟩ := exists_of_heldAt? h hout (h.entries.keys _ he) hheld
    obtain ⟨m', hm', hreach⟩ := ih (h.value he) hw
    exact ⟨m', hm', reaches_of_valueAt? hfound hreach⟩
  | inherited hmerges hk hkey hv _ ih =>
    obtain ⟨sources, out, hmerges', rfl, hout⟩ := merged_mapping_ok_iff.mp ht
    obtain rfl := merges_unique hmerges hmerges'
    obtain ⟨w, hw, hfound⟩ := exists_of_heldAt? h hout hk (heldAt?_inherited hkey hv)
    obtain ⟨m', hm', hreach⟩ := ih (keysDistinct_inherited h hmerges hv) hw
    exact ⟨m', hm', reaches_of_valueAt? hfound hreach⟩

/-- Every part of a merged tree is the result for a part that was visited. -/
theorem Reaches.exists_visited {m' : Tree} (hreach : t'.Reaches m') (h : t.KeysDistinct)
    (ht : t.merged = .ok t') : ∃ m, t.Visited m ∧ m.merged = .ok m' := by
  induction hreach generalizing t with
  | here => exact ⟨t, .here t, ht⟩
  | item hu _ ih =>
    cases mergesInto_of_merged ht with
    | sequence hmerged =>
      obtain ⟨s, hs, hsu⟩ := exists_mem_left hmerged hu
      cases h with
      | sequence hitems =>
        obtain ⟨m, hvisited, hm⟩ := ih (hitems s hs) hsu
        exact ⟨m, .item hs hvisited, hm⟩
  | value he _ ih =>
    cases mergesInto_of_merged ht with
    | mapping hentries =>
      obtain ⟨sources, hmerges, hout⟩ := hentries
      have hdistinct := entriesDistinct_merged h hmerges hout
      have hk := hdistinct.keys _ he
      obtain ⟨v, hv, hmerged⟩ := exists_heldAt? h hout hk (valueAt?_of_mem hdistinct he)
      have hvisited := Visited.held hmerges hk hv (.here v)
      obtain ⟨m, hinner, hm⟩ := ih (hvisited.keysDistinct h) hmerged
      exact ⟨m, .held hmerges hk hv hinner, hm⟩
  | content _ ih =>
    cases mergesInto_of_merged ht with
    | tagged _ hmerged =>
      cases h with
      | tagged _ h =>
        obtain ⟨m, hvisited, hm⟩ := ih h hmerged
        exact ⟨m, .content hvisited, hm⟩

end Visited

end Tree

end ConfigModules.Yaml
