import ConfigModules.Proofs.Yaml.MergedTree
import Mathlib.Data.List.Induction

/-! Merging as a loop. A stack holds the places in a tree that are still to be visited, the next one first; a
visit merges at the node there and puts the places of its parts on the stack, so that the last part comes
next. The loop ends with the tree that the recursion gives, or with its fault. -/
namespace ConfigModules.Yaml

open Tree Merge

/-! ## Parts and places -/

namespace Tree

/-- What is merged in turn after a node. -/
def parts : Tree → List Tree
  | .sequence items => items
  | .mapping entries => entries.map Prod.snd
  | .tagged _ content => [content]
  | _ => []

/-- The node with other parts, as many as it has. -/
def withParts : Tree → List Tree → Tree
  | .sequence _, ts => .sequence ts
  | .mapping entries, ts => .mapping ((entries.map Prod.fst).zip ts)
  | .tagged tag content, ts => .tagged tag (ts.headD content)
  | t, _ => t

/-- The tree at a place, which is told by the indices of parts on the way. -/
def partAt? : Tree → (place : List Nat) → Option Tree
  | t, [] => some t
  | t, i :: place => t.parts[i]?.bind fun part => part.partAt? place

/-- Another tree at a place. -/
def put (new : Tree) : (place : List Nat) → Tree → Tree
  | [], _ => new
  | i :: place, t =>
    match t.parts[i]? with
    | none => t
    | some part => t.withParts (t.parts.set i (put new place part))

theorem parts_withParts {t : Tree} {ts : List Tree} (h : ts.length = t.parts.length) :
    (t.withParts ts).parts = ts := by
  cases t with
  | sequence items => rfl
  | mapping entries =>
    have hlength : ts.length = (entries.map Prod.fst).length := by
      rw [h, parts, List.length_map, List.length_map]
    rw [withParts, parts, List.map_snd_zip (Nat.le_of_eq hlength)]
  | tagged tag content =>
    obtain ⟨u, rfl⟩ := List.length_eq_one_iff.mp h
    rfl
  | null | boolean | number | string => exact (List.length_eq_zero_iff.mp h).symm

theorem withParts_withParts {t : Tree} {ts us : List Tree} (h : ts.length = t.parts.length)
    (hus : us.length = t.parts.length) : (t.withParts ts).withParts us = t.withParts us := by
  cases t with
  | mapping entries =>
    have hlength : (entries.map Prod.fst).length = ts.length := by
      rw [h, parts, List.length_map, List.length_map]
    rw [withParts, withParts, withParts, List.map_fst_zip (Nat.le_of_eq hlength)]
  | tagged tag content =>
    obtain ⟨u, rfl⟩ := List.length_eq_one_iff.mp hus
    rfl
  | sequence | null | boolean | number | string => rfl

theorem withParts_parts (t : Tree) : t.withParts t.parts = t := by
  cases t with
  | mapping entries =>
    rw [withParts, parts, ← List.unzip_fst, ← List.unzip_snd, List.zip_unzip]
  | sequence | tagged | null | boolean | number | string => rfl

variable {t : Tree} {place : List Nat}

/-- A place is where it was, whatever is put there. -/
theorem partAt?_put (hplace : (t.partAt? place).isSome) (new : Tree) (more : List Nat) :
    (put new place t).partAt? (place ++ more) = new.partAt? more := by
  induction place generalizing t with
  | nil => rfl
  | cons i place ih =>
    cases hpart : t.parts[i]? with
    | none => simp [partAt?, hpart] at hplace
    | some part =>
      have hi : i < t.parts.length := (List.getElem?_eq_some_iff.mp hpart).1
      have hplace : (part.partAt? place).isSome := by simpa [partAt?, hpart] using hplace
      rw [put, hpart, List.cons_append, partAt?, parts_withParts (List.length_set ..),
        List.getElem?_set_self hi, Option.bind_some]
      exact ih hplace

theorem put_put (hplace : (t.partAt? place).isSome) (a b : Tree) (more : List Nat) :
    put b (place ++ more) (put a place t) = put (put b more a) place t := by
  induction place generalizing t with
  | nil => rfl
  | cons i place ih =>
    cases hpart : t.parts[i]? with
    | none => simp [partAt?, hpart] at hplace
    | some part =>
      have hi : i < t.parts.length := (List.getElem?_eq_some_iff.mp hpart).1
      have hplace : (part.partAt? place).isSome := by simpa [partAt?, hpart] using hplace
      have hlength (u : Tree) : (t.parts.set i u).length = t.parts.length := List.length_set ..
      simp only [put, hpart, List.cons_append, parts_withParts (hlength _), List.getElem?_set_self hi,
        List.set_set, withParts_withParts (hlength _) (hlength _), ih hplace]

section Part

variable {node part : Tree} {before after : List Tree}

theorem partAt?_part (h : (before ++ part :: after).length = node.parts.length) :
    (node.withParts (before ++ part :: after)).partAt? [before.length] = some part := by
  rw [partAt?, parts_withParts h, List.getElem?_append_right (Nat.le_refl _), Nat.sub_self]
  rfl

/-- Another tree for one part of a node. -/
theorem put_part (h : (before ++ part :: after).length = node.parts.length) (new : Tree) :
    put new [before.length] (node.withParts (before ++ part :: after)) =
      node.withParts (before ++ new :: after) := by
  have hset : (before ++ part :: after).set before.length new = before ++ new :: after := by
    rw [List.set_append_right _ _ (Nat.le_refl _), Nat.sub_self, List.set_cons_zero]
  have hlength : (before ++ new :: after).length = node.parts.length := by
    rw [← h, List.length_append, List.length_append, List.length_cons, List.length_cons]
  rw [put, parts_withParts h, List.getElem?_append_right (Nat.le_refl _), Nat.sub_self,
    List.getElem?_cons_zero]
  dsimp only [put]
  rw [hset, withParts_withParts h hlength]

end Part

end Tree

/-! ## Merging at one node -/

namespace Merge

/-- Adds the entries of one mapping after another, up to an element that is none. -/
def addElements (entries : List (Tree × Tree)) : List Tree → Except MergeFault (List (Tree × Tree))
  | [] => .ok entries
  | .mapping source :: items => addElements (addMissing entries source) items
  | .sequence _ :: _ => .error .sequenceElement
  | .tagged _ _ :: _ => .error .tagged
  | _ :: _ => .error .scalarElement

/-- Adds what stood under the merge key. -/
def addSource (entries : List (Tree × Tree)) : Option Tree → Except MergeFault (List (Tree × Tree))
  | none => .ok entries
  | some (.mapping source) => .ok (addMissing entries source)
  | some (.sequence items) => addElements entries items
  | some (.tagged _ _) => .error .tagged
  | some _ => .error .scalar

theorem addMissing_mergedEntries (entries added : List (Tree × Tree)) :
    addMissing (mergedEntries entries) (mergedEntries added) = mergedEntries (addMissing entries added) := by
  induction added generalizing entries with
  | nil => rfl
  | cons e added ih =>
    have hany : (mergedEntries entries).any (fun f => e.1.same f.1) = entries.any fun f => e.1.same f.1 := by
      rw [mergedEntries_eq, List.any_map]
      rfl
    rw [mergedEntries, addMissing_cons, addMissing_cons, ← ih, hany]
    split_ifs
    · rfl
    · rw [mergedEntries_eq (entries ++ [e]), List.map_append, ← mergedEntries_eq]
      rfl

theorem noKey_mergedEntries {entries : List (Tree × Tree)} (h : ∀ e ∈ entries, isMergeKey e.1 = false) :
    ∀ f ∈ mergedEntries entries, isMergeKey f.1 = false := by
  intro f hf
  rw [mergedEntries_eq] at hf
  obtain ⟨e, he, rfl⟩ := List.mem_map.mp hf
  exact h e he

theorem ownEntries_of_no_key {entries : List (Tree × Tree)} (h : ∀ e ∈ entries, isMergeKey e.1 = false) :
    ownEntries entries = mergedEntries entries := by
  rw [ownEntries_eq, mergedEntries_eq]
  refine List.map_congr_left ?_
  intro e he
  rw [h e he, if_neg Bool.false_ne_true]

/-- Whether values are merged before the merge entry is taken out or after makes no difference. -/
theorem takeOut_ownEntries {entries : List (Tree × Tree)} (h : EntriesDistinct entries) :
    takeOut (ownEntries entries) = mergedEntries (takeOut entries) := by
  rcases split_mergeKey h with hnone | ⟨pre, e, post, rfl, hkey, hother⟩
  · rw [takeOut_of_no_key hnone, ownEntries_of_no_key hnone,
      takeOut_of_no_key (noKey_mergedEntries hnone)]
  · have hpre : ∀ f ∈ pre, isMergeKey f.1 = false := fun f hf => hother f (List.mem_append_left _ hf)
    have hpost : ∀ f ∈ post, isMergeKey f.1 = false := fun f hf => hother f (List.mem_append_right _ hf)
    have hsplit : ownEntries (pre ++ e :: post) =
        mergedEntries pre ++ (e.1, .ok .null) :: mergedEntries post := by
      rw [ownEntries_eq, List.map_append, List.map_cons, ← ownEntries_eq, ← ownEntries_eq,
        ownEntries_of_no_key hpre, ownEntries_of_no_key hpost, if_pos hkey]
    rw [hsplit, takeOut_of_key hpre hkey,
      takeOut_of_key (e := (e.1, .ok .null)) (noKey_mergedEntries hpre) hkey]
    simp only [mergedEntries_eq, lastFirst_map, List.map_append]

theorem elementSources_addElements (entries : List (Tree × Tree)) (items : List Tree) :
    (elementSources items).map (·.foldl addMissing (mergedEntries entries)) =
      (addElements entries items).map mergedEntries := by
  induction items generalizing entries with
  | nil => rfl
  | cons t items ih =>
    cases t with
    | mapping source =>
      rw [addElements, ← ih, ← addMissing_mergedEntries, elementSources]
      cases elementSources items <;> rfl
    | null | boolean | number | string | sequence | tagged => rfl

theorem mergeSources_addSource (entries own : List (Tree × Tree)) :
    (mergeSources entries).map (·.foldl addMissing (mergedEntries own)) =
      (addSource own (valueAt? mergeKey entries)).map mergedEntries := by
  rw [mergeSources_eq]
  cases valueAt? mergeKey entries with
  | none => rfl
  | some v =>
    cases v with
    | mapping source =>
      dsimp only [sourcesOf, addSource, Except.map, List.foldl]
      rw [addMissing_mergedEntries]
    | sequence items => exact elementSources_addElements own items
    | null | boolean | number | string | tagged => rfl

theorem allEntries_mergedEntries (entries : List (Tree × Tree)) :
    allEntries (mergedEntries entries) =
      (allItems ((entries.map Prod.snd).map Tree.merged)).map (entries.map Prod.fst).zip := by
  induction entries with
  | nil => rfl
  | cons e es ih =>
    rw [mergedEntries, allEntries, ih, List.map_cons, List.map_cons, List.map_cons, allItems]
    cases allItems ((es.map Prod.snd).map Tree.merged) with
    | error fault => rfl
    | ok ts => cases e.2.merged <;> rfl

end Merge

namespace Tree

/-- The node after the merge at it, whose parts are still to be merged. -/
def resolved : Tree → Outcome
  | .mapping entries => (addSource (takeOut entries) (valueAt? mergeKey entries)).map mapping
  | t => .ok t

theorem merged_mapping {entries : List (Tree × Tree)} (h : (mapping entries).KeysDistinct) :
    (mapping entries).merged = do
      let es ← addSource (takeOut entries) (valueAt? mergeKey entries)
      return mapping ((es.map Prod.fst).zip (← allItems ((es.map Prod.snd).map merged))) := by
  have hall : (mapping entries).merged =
      (mergeSources entries).map (·.foldl addMissing (takeOut (ownEntries entries))) >>= fun es => do
        return mapping (← allEntries es) := by
    rw [merged]
    cases mergeSources entries <;> rfl
  rw [hall, takeOut_ownEntries h.entries, mergeSources_addSource]
  cases addSource (takeOut entries) (valueAt? mergeKey entries) with
  | error fault => rfl
  | ok es =>
    show (allEntries (mergedEntries es)).bind _ = _
    rw [allEntries_mergedEntries]
    cases hitems : allItems ((es.map Prod.snd).map merged) <;> simp only [bind, Except.bind, hitems] <;> rfl

/-- The recursion merges at a node first and then its parts, the last part before the others. -/
theorem merged_eq {t : Tree} (h : t.KeysDistinct) :
    t.merged = t.resolved >>= fun node => (allItems (node.parts.map merged)).map node.withParts := by
  cases t with
  | null | boolean | number | string => rfl
  | sequence items =>
    rw [merged, mergedItems_eq]
    rfl
  | tagged tag content =>
    show content.merged.bind _ = (allItems [content.merged]).bind _
    cases content.merged <;> rfl
  | mapping entries =>
    rw [merged_mapping h, resolved]
    cases addSource (takeOut entries) (valueAt? mergeKey entries) <;> rfl

end Tree

/-! ## The parts after a merge at a node -/

section Parts

variable {entries own es : List (Tree × Tree)} {sources : List (List (Tree × Tree))} {e : Tree × Tree}

theorem addElements_ok {items : List Tree} (h : addElements own items = .ok es) :
    ∃ sources : List (List (Tree × Tree)),
      items = sources.map Tree.mapping ∧ es = sources.foldl addMissing own := by
  induction items generalizing own with
  | nil => exact ⟨[], rfl, (Except.ok.inj h).symm⟩
  | cons t items ih =>
    cases t with
    | mapping source =>
      obtain ⟨sources, rfl, rfl⟩ := ih h
      exact ⟨source :: sources, rfl, rfl⟩
    | null | boolean | number | string | sequence | tagged => cases h

theorem addSource_ok (h : addSource own (valueAt? mergeKey entries) = .ok es) :
    ∃ sources, Merges entries sources ∧ es = sources.foldl addMissing own := by
  cases hvalue : valueAt? mergeKey entries with
  | none =>
    rw [hvalue] at h
    exact ⟨[], .nothing hvalue, (Except.ok.inj h).symm⟩
  | some v =>
    rw [hvalue] at h
    cases v with
    | mapping source => exact ⟨[source], .one hvalue, (Except.ok.inj h).symm⟩
    | sequence items =>
      obtain ⟨sources, rfl, hes⟩ := addElements_ok h
      exact ⟨sources, .several hvalue, hes⟩
    | null | boolean | number | string | tagged => cases h

theorem mem_addMissing {added : List (Tree × Tree)} (he : e ∈ addMissing own added) :
    e ∈ own ∨ e ∈ added := by
  induction added generalizing own with
  | nil => exact .inl he
  | cons f added ih =>
    rw [addMissing_cons] at he
    split_ifs at he
    · exact (ih he).imp id (List.mem_cons_of_mem f)
    · rcases ih he with he | he
      · rcases List.mem_append.mp he with he | he
        · exact .inl he
        · rw [List.mem_singleton.mp he]
          exact .inr List.mem_cons_self
      · exact .inr (List.mem_cons_of_mem f he)

theorem mem_addAll (he : e ∈ sources.foldl addMissing own) :
    e ∈ own ∨ ∃ source ∈ sources, e ∈ source := by
  induction sources generalizing own with
  | nil => exact .inl he
  | cons source sources ih =>
    rcases ih he with he | ⟨other, hother, he⟩
    · rcases mem_addMissing he with he | he
      · exact .inl he
      · exact .inr ⟨source, List.mem_cons_self, he⟩
    · exact .inr ⟨other, List.mem_cons_of_mem source hother, he⟩

theorem mem_of_mem_takeOut (h : EntriesDistinct entries) (he : e ∈ takeOut entries) : e ∈ entries := by
  rcases split_mergeKey h with hnone | ⟨pre, f, post, rfl, hkey, hother⟩
  · rwa [takeOut_of_no_key hnone] at he
  · have hpre : ∀ f ∈ pre, isMergeKey f.1 = false := fun f hf => hother f (List.mem_append_left _ hf)
    rw [(takeOut_perm hpre hkey).mem_iff] at he
    exact (List.sublist_cons_self f post).append_left pre |>.mem he

theorem sizeOf_value_lt (he : e ∈ entries) : sizeOf e.2 < sizeOf entries := by
  have hlt := List.sizeOf_lt_of_mem he
  obtain ⟨k, v⟩ := e
  rw [Prod.mk.sizeOf_spec] at hlt
  dsimp only
  omega

theorem sizeOf_source_le (h : Merges entries sources) {source : List (Tree × Tree)}
    (hsource : source ∈ sources) : sizeOf source ≤ sizeOf entries := by
  cases h with
  | nothing => cases hsource
  | one hvalue =>
    obtain rfl := List.mem_singleton.mp hsource
    obtain ⟨e, he, _, hv⟩ := exists_of_valueAt? hvalue
    have hlt := sizeOf_value_lt he
    rw [hv, Tree.mapping.sizeOf_spec] at hlt
    omega
  | several hvalue =>
    obtain ⟨e, he, _, hv⟩ := exists_of_valueAt? hvalue
    have hlt := sizeOf_value_lt he
    have hmem := List.sizeOf_lt_of_mem (List.mem_map_of_mem (f := Tree.mapping) hsource)
    rw [hv, Tree.sequence.sizeOf_spec] at hlt
    rw [Tree.mapping.sizeOf_spec] at hmem
    omega

/-- What is merged after a node is smaller than the node was. -/
theorem sizeOf_part_lt {t node part : Tree} (h : t.KeysDistinct) (hnode : t.resolved = .ok node)
    (hpart : part ∈ node.parts) : sizeOf part < sizeOf t ∧ part.KeysDistinct := by
  cases h with
  | null | boolean | number | string =>
    cases hnode
    cases hpart
  | sequence hitems =>
    cases hnode
    refine ⟨?_, hitems part hpart⟩
    have hlt := List.sizeOf_lt_of_mem hpart
    rw [Tree.sequence.sizeOf_spec]
    dsimp only [parts] at hlt
    omega
  | tagged tag hcontent =>
    cases hnode
    obtain rfl := List.mem_singleton.mp hpart
    rw [Tree.tagged.sizeOf_spec]
    exact ⟨by omega, hcontent⟩
  | @mapping entries hapart hkeys hvalues =>
    have h : (Tree.mapping entries).KeysDistinct := .mapping hapart hkeys hvalues
    cases hes : addSource (takeOut entries) (valueAt? mergeKey entries) with
    | error fault =>
      rw [resolved, hes] at hnode
      cases hnode
    | ok es =>
      rw [resolved, hes] at hnode
      cases hnode
      obtain ⟨sources, hmerges, rfl⟩ := addSource_ok hes
      obtain ⟨e, he, rfl⟩ := List.mem_map.mp hpart
      rw [Tree.mapping.sizeOf_spec]
      rcases mem_addAll he with he | ⟨source, hsource, he⟩
      · have he := mem_of_mem_takeOut h.entries he
        have hlt := sizeOf_value_lt he
        exact ⟨by omega, hvalues e he⟩
      · have hlt := sizeOf_value_lt he
        have hle := sizeOf_source_le hmerges hsource
        exact ⟨by omega, (keysDistinct_of_merges hmerges h source hsource).value he⟩

end Parts

/-! ## The loop -/

/-- The places of the first parts of a node, the last of them first. -/
def placesBelow (place : List Nat) (count : Nat) : List (List Nat) :=
  ((List.range count).map fun i => place ++ [i]).reverse

/-- The loop that has places left to visit in a tree ends with a tree or a fault. A visit merges at the
node at the place and puts the places of its parts before the others. -/
inductive Ends : (places : List (List Nat)) → Tree → Outcome → Prop
  | done (t : Tree) : Ends [] t (.ok t)
  | stopped {place : List Nat} (places : List (List Nat)) {t node : Tree} {fault : MergeFault} :
      t.partAt? place = some node → node.resolved = .error fault → Ends (place :: places) t (.error fault)
  | visit {place : List Nat} {places : List (List Nat)} {t node resolved : Tree} {outcome : Outcome} :
      t.partAt? place = some node → node.resolved = .ok resolved →
      Ends (placesBelow place resolved.parts.length ++ places) (put resolved place t) outcome →
      Ends (place :: places) t outcome

theorem Ends.unique {places : List (List Nat)} {t : Tree} {outcome other : Outcome}
    (h : Ends places t outcome) (h' : Ends places t other) : outcome = other := by
  induction h with
  | done => cases h'; rfl
  | stopped places hnode hresolved =>
    cases h' with
    | stopped _ hnode' hresolved' =>
      obtain rfl := Option.some.inj (hnode.symm.trans hnode')
      exact hresolved.symm.trans hresolved'
    | visit hnode' hresolved' =>
      obtain rfl := Option.some.inj (hnode.symm.trans hnode')
      cases hresolved.symm.trans hresolved'
  | visit hnode hresolved _ ih =>
    cases h' with
    | stopped _ hnode' hresolved' =>
      obtain rfl := Option.some.inj (hnode.symm.trans hnode')
      cases hresolved.symm.trans hresolved'
    | visit hnode' hresolved' hrest =>
      obtain rfl := Option.some.inj (hnode.symm.trans hnode')
      obtain rfl := Except.ok.inj (hresolved.symm.trans hresolved')
      exact ih hrest

/-- How the loop ends once the part of the tree at a place is merged: with the fault of that, or as it does
with the merged part at the place. -/
def EndsAfter (place : List Nat) (places : List (List Nat)) (t : Tree) (outcome : Outcome) : Outcome → Prop
  | .ok part => Ends places (put part place t) outcome
  | .error fault => outcome = .error fault

/-- A visit to a place leads to the merged part at it, whatever is left to visit then. -/
def Settles (part : Tree) : Prop :=
  ∀ (t : Tree) (place : List Nat) (places : List (List Nat)) (outcome : Outcome),
    t.partAt? place = some part → EndsAfter place places t outcome part.merged →
    Ends (place :: places) t outcome

theorem placesBelow_succ (place : List Nat) (count : Nat) :
    placesBelow place (count + 1) = (place ++ [count]) :: placesBelow place count := by
  rw [placesBelow, List.range_succ, List.map_append, List.reverse_append]
  rfl

theorem allItems_concat (xs : List Outcome) (x : Outcome) :
    allItems (xs ++ [x]) = x >>= fun t => (allItems xs).map (· ++ [t]) := by
  induction xs with
  | nil => cases x <;> rfl
  | cons y ys ih =>
    rw [List.cons_append, allItems, ih, allItems]
    cases x with
    | error fault => rfl
    | ok t =>
      cases allItems ys with
      | error fault => rfl
      | ok ts => cases y <;> rfl

/-- The parts of a node are settled from the last one to the first, each in place of what it was. -/
theorem ends_parts {t : Tree} {place : List Nat} {places : List (List Nat)} {outcome : Outcome}
    (hplace : (t.partAt? place).isSome) (node : Tree) (before after : List Tree)
    (hlength : (before ++ after).length = node.parts.length) (hbefore : ∀ part ∈ before, Settles part)
    (h : EndsAfter place places t outcome
      ((allItems (before.map merged)).map fun ts => node.withParts (ts ++ after))) :
    Ends (placesBelow place before.length ++ places) (put (node.withParts (before ++ after)) place t)
      outcome := by
  -- `after` holds the parts that are merged; the next one comes to its front
  induction before using List.reverseRecOn generalizing after with
  | nil => exact h
  | append_singleton before part ih =>
    obtain ⟨hbefore, hpart⟩ := List.forall_mem_append.mp hbefore
    rw [List.append_assoc, List.singleton_append] at hlength ⊢
    rw [List.length_append, List.length_singleton, placesBelow_succ, List.cons_append]
    refine hpart part (List.mem_singleton_self part) _ _ _ _ ?found ?rest
    case found => rw [partAt?_put hplace, partAt?_part hlength]
    case rest =>
      rw [List.map_append, List.map_singleton, allItems_concat] at h
      cases hmerged : part.merged with
      | error fault =>
        rw [hmerged] at h
        exact h
      | ok new =>
        rw [EndsAfter, put_put hplace, put_part hlength]
        refine ih _ ?_ hbefore ?_
        · rw [← hlength, List.length_append, List.length_append, List.length_cons, List.length_cons]
        · rw [hmerged] at h
          cases hitems : allItems (before.map merged) with
          | error fault =>
            rw [hitems] at h
            exact h
          | ok ts =>
            rw [hitems] at h
            have h : Ends places (put (node.withParts (ts ++ [new] ++ after)) place t) outcome := h
            rw [List.append_assoc, List.singleton_append] at h
            exact h

theorem settles {part : Tree} (h : part.KeysDistinct) : Settles part := by
  -- on the size and not on the tree: the parts to settle are those of the node after the merge at it
  induction hsize : sizeOf part using Nat.strongRecOn generalizing part with
  | ind size ih =>
    subst hsize
    intro t place places outcome hpart hends
    rw [merged_eq h] at hends
    cases hresolved : part.resolved with
    | error fault =>
      rw [hresolved] at hends
      obtain rfl : outcome = .error fault := hends
      exact .stopped places hpart hresolved
    | ok node =>
      rw [hresolved] at hends
      have hends : EndsAfter place places t outcome
          ((allItems (node.parts.map merged)).map node.withParts) := hends
      have hparts : ∀ p ∈ node.parts, Settles p := by
        intro p hp
        obtain ⟨hlt, hkeys⟩ := sizeOf_part_lt h hresolved hp
        exact ih _ hlt hkeys rfl
      have hplace : (t.partAt? place).isSome := by rw [hpart]; rfl
      have hlength : (node.parts ++ []).length = node.parts.length := by rw [List.append_nil]
      have hrest := ends_parts hplace node node.parts [] hlength hparts (by simpa using hends)
      rw [List.append_nil, withParts_parts] at hrest
      exact .visit hpart hresolved hrest

/-- From the root the loop ends with the merged tree or with the fault of the merge, and no other way. -/
theorem ends_iff {t : Tree} {outcome : Outcome} (h : t.KeysDistinct) :
    Ends [[]] t outcome ↔ t.merged = outcome := by
  have hmerged : Ends [[]] t t.merged := by
    refine settles h t [] [] t.merged rfl ?_
    cases hmerged : t.merged with
    | error fault => rfl
    | ok t' => exact .done t'
  constructor
  · exact fun hends => hmerged.unique hends
  · rintro rfl
    exact hmerged

end ConfigModules.Yaml
