import ConfigModules.Proofs.DocumentTree
import ConfigModules.Proofs.Position

/-! The order of a mapping's own entries under merging. Taking the merge entry out brings the last entry
to its place, so that the own entries keep their order where at most one stands after the merge entry. -/
namespace ConfigModules

open Yaml Yaml.Tree Yaml.Merge

/-- The names of the second mapping that the first one has, but for the name of the merge key. -/
def ownNames (fields fields' : List (String × Value)) : List String :=
  (fields'.map Prod.fst).filter fun name => name != "<<" && (fields.map Prod.fst).contains name

namespace Yaml

/-- A tree and what a merge makes of it, with their values. -/
structure Merging (t t' : Tree) (v v' : Value) : Prop where
  keys : t.KeysDistinct
  merged : t.merged = .ok t'
  value : t.HasValue v
  value' : t'.HasValue v'
  distinct : v.KeysDistinct
  distinct' : v'.KeysDistinct

/-! ## The two mappings at a position -/

section Merging

variable {t t' : Tree} {v v' : Value}

theorem Merging.untagged (h : Merging t t' v v') : Merging t.untagged t'.untagged v v' := by
  induction t using induct generalizing t' with
  | tagged tag t ih =>
    obtain ⟨hkeys, hmerged, hvalue, hvalue', hdistinct, hdistinct'⟩ := h
    cases mergesInto_of_merged hmerged with
    | tagged _ hcontent =>
      cases hkeys with
      | tagged _ hkeys =>
        cases hvalue with
        | tagged _ hvalue =>
          cases hvalue' with
          | tagged _ hvalue' =>
            have huntagged := ih ⟨hkeys, hcontent, hvalue, hvalue', hdistinct, hdistinct'⟩
            exact huntagged
  | _ =>
    cases mergesInto_of_merged h.merged
    exact h

theorem Merging.item {values values' : List Value} (h : Merging t t' (.sequence values) (.sequence values'))
    {i : Nat} {x x' : Value} (hx : values[i]? = some x) (hx' : values'[i]? = some x') :
    ∃ items u u', t.untagged = .sequence items ∧ items[i]? = some u ∧ Merging u u' x x' := by
  obtain ⟨items, hitems, hvalues⟩ := untagged_of_sequence h.value
  obtain ⟨items', hitems', hvalues'⟩ := untagged_of_sequence h.value'
  obtain ⟨hkeys, hmerged, -, -, -, -⟩ := h.untagged
  rw [hitems] at hkeys hmerged
  rw [hitems'] at hmerged
  obtain ⟨u, hu, hux⟩ := exists_getElem? hvalues hx
  obtain ⟨u', hu', hux'⟩ := exists_getElem? hvalues' hx'
  cases mergesInto_of_merged hmerged with
  | sequence hall =>
    obtain ⟨w, hw, hwu⟩ := exists_getElem? hall hu'
    obtain rfl : u = w := Option.some.inj (hu.symm.trans hw)
    cases hkeys with
    | sequence hkeys =>
      exact ⟨items, u, u', hitems, hu, hkeys u (List.mem_of_getElem? hu), hwu, hux, hux',
        Value.keysDistinct_item h.distinct (List.mem_of_getElem? hx),
        Value.keysDistinct_item h.distinct' (List.mem_of_getElem? hx')⟩

/-- An own entry is found in the merged mapping under its name. -/
theorem merged_of_own {entries out : List (Tree × Tree)} {fields fields' : List (String × Value)}
    (h : Merging (.mapping entries) (.mapping out) (.mapping fields) (.mapping fields'))
    {e e' : Tree × Tree} (he : e ∈ entries) (he' : e' ∈ out) (hkey : isMergeKey e.1 = false)
    (hname : e.1.keyName? = e'.1.keyName?) : e.2.merged = .ok e'.2 := by
  obtain ⟨sources, _, _, hentries, hout⟩ := merged_mapping_ok_iff.mp h.merged
  cases hentries
  have hheld := heldAt?_own sources hkey (valueAt?_of_mem h.keys.entries he)
  obtain ⟨w, hw, hfound⟩ := exists_of_heldAt? h.keys hout (h.keys.entries.keys e he) hheld
  obtain ⟨f, hf, hef, rfl⟩ := exists_of_valueAt? hfound
  -- names are distinct, so the entry found under the key is the one with the name
  have hnames : (out.map fun e => e.1.keyName?).Nodup := by
    obtain ⟨_, hfields, hall⟩ := hasValue_mapping_iff.mp h.value'
    cases hfields
    exact (nodup_names_iff (entrywise_iff.mp hall).1).mpr h.distinct'.1
  have hsame : f.1.keyName? = e'.1.keyName? := by
    rw [← keyName?_of_same hef, hname]
  rw [← List.inj_on_of_nodup_map hnames hf he' hsame]
  exact hw

theorem Merging.field {fields fields' : List (String × Value)}
    (h : Merging t t' (.mapping fields) (.mapping fields')) {name : String} (hother : name ≠ "<<")
    {x x' : Value} (hx : fields.lookup name = some x) (hx' : fields'.lookup name = some x') :
    ∃ entries e u', t.untagged = .mapping entries ∧
      entries.find? (fun e => e.1.keyName? == some name) = some e ∧ Merging e.2 u' x x' := by
  obtain ⟨entries, hentries, hfields⟩ := untagged_of_mapping h.value
  obtain ⟨out, hout, hfields'⟩ := untagged_of_mapping h.value'
  have huntagged := h.untagged
  rw [hentries, hout] at huntagged
  obtain ⟨e, he, hex⟩ := find?_of_lookup hfields hx
  obtain ⟨e', he', hex'⟩ := find?_of_lookup hfields' hx'
  have hname : e.1.keyName? = some name := by simpa using List.find?_some he
  have hname' : e'.1.keyName? = some name := by simpa using List.find?_some he'
  have hkey : isMergeKey e.1 = false := by
    refine Bool.eq_false_iff.mpr ?_
    intro hkey
    rw [isMergeKey_iff.mp hkey] at hname
    exact hother (Option.some.inj hname).symm
  have hmem := List.mem_of_find?_eq_some he
  have hmerged := merged_of_own huntagged hmem (List.mem_of_find?_eq_some he') hkey (hname.trans hname'.symm)
  exact ⟨entries, e, e'.2, hentries, he, huntagged.keys.value hmem, hmerged, hex, hex',
    Value.keysDistinct_field h.distinct (mem_of_lookup hx),
    Value.keysDistinct_field h.distinct' (mem_of_lookup hx')⟩

/-- At a position that does not go through a merge key, what is merged there comes from the tree there. -/
theorem Merging.at {p : List ValueStep} (hp : ValueStep.field "<<" ∉ p) (h : Merging t t' v v')
    {fields fields' : List (String × Value)} (hat : v.at? p = some (.mapping fields))
    (hat' : v'.at? p = some (.mapping fields')) :
    ∃ entries out, t.at? p = some (.mapping entries) ∧
      Merging (.mapping entries) (.mapping out) (.mapping fields) (.mapping fields') := by
  induction p generalizing t t' v v' with
  | nil =>
    obtain rfl := Option.some.inj hat
    obtain rfl := Option.some.inj hat'
    obtain ⟨entries, hentries, _⟩ := untagged_of_mapping h.value
    obtain ⟨out, hout, _⟩ := untagged_of_mapping h.value'
    exact ⟨entries, out, congrArg some hentries, hentries ▸ hout ▸ h.untagged⟩
  | cons step p ih =>
    have hrest := List.not_mem_of_not_mem_cons hp
    cases step with
    | item i =>
      obtain ⟨values, x, rfl, hx, hat⟩ := Value.at?_item_iff.mp hat
      obtain ⟨values', x', rfl, hx', hat'⟩ := Value.at?_item_iff.mp hat'
      obtain ⟨items, u, u', hitems, hu, hux⟩ := h.item hx hx'
      obtain ⟨entries, out, hentries, hboth⟩ := ih hrest hux hat hat'
      refine ⟨entries, out, ?_, hboth⟩
      simp only [Tree.at?, hitems, hu, Option.bind_some, hentries]
    | field name =>
      obtain ⟨outer, x, rfl, hx, hat⟩ := Value.at?_field_iff.mp hat
      obtain ⟨outer', x', rfl, hx', hat'⟩ := Value.at?_field_iff.mp hat'
      have hother : name ≠ "<<" := by
        rintro rfl
        exact hp List.mem_cons_self
      obtain ⟨found, e, u', hfound, he, hex⟩ := h.field hother hx hx'
      obtain ⟨entries, out, hentries, hboth⟩ := ih hrest hex hat hat'
      refine ⟨entries, out, ?_, hboth⟩
      simp only [Tree.at?, hfound, he, Option.bind_some, hentries]

end Merging

/-! ## Own names -/

section OwnNames

variable {fields fields' : List (String × Value)}

theorem ownNames_self (fields : List (String × Value)) :
    ownNames fields fields = (fields.map Prod.fst).filter (· != "<<") := by
  apply List.filter_congr
  intro name hname
  rw [List.contains_iff_mem.mpr hname, Bool.and_true]

/-- Names at the start that are the own ones in some order are the own names. -/
theorem ownNames_of_append {own added : List String} (hsplit : fields'.map Prod.fst = own ++ added)
    (hnodup : (fields'.map Prod.fst).Nodup)
    (hperm : (own.filter (· != "<<")).Perm (ownNames fields fields)) :
    ownNames fields fields' = own.filter (· != "<<") := by
  have hmem : ∀ name, (name != "<<" && (fields.map Prod.fst).contains name) = true ↔
      name ∈ own.filter (· != "<<") := by
    intro name
    rw [hperm.mem_iff, ownNames_self, List.mem_filter, Bool.and_eq_true, List.contains_iff_mem, and_comm]
  rw [hsplit] at hnodup
  rw [ownNames, hsplit, List.filter_append]
  have hadded : added.filter (fun name => name != "<<" && (fields.map Prod.fst).contains name) = [] := by
    rw [List.filter_eq_nil_iff]
    intro name hname hown
    exact List.disjoint_of_nodup_append hnodup (List.mem_of_mem_filter ((hmem name).mp hown)) hname
  rw [hadded, List.append_nil]
  apply List.filter_congr
  intro name hname
  rw [Bool.eq_iff_iff, hmem, List.mem_filter, and_iff_right hname]

/-- The name of the merge key stands once among distinct names. -/
theorem ownNames_of_split {before after : List String}
    (hfields : fields.map Prod.fst = before ++ "<<" :: after) (hnodup : (fields.map Prod.fst).Nodup) :
    ownNames fields fields = before ++ after ∧ ∀ n ∈ before ++ after, (n != "<<") = true := by
  have hother : ∀ n ∈ before ++ after, (n != "<<") = true := by
    rw [hfields] at hnodup
    intro n hn
    have hnot := (List.nodup_middle.mp hnodup).notMem
    exact bne_iff_ne.mpr fun heq => hnot (heq ▸ hn)
  refine ⟨?_, hother⟩
  rw [ownNames_self, hfields, List.filter_append, List.filter_cons_of_neg (by simp), ← List.filter_append,
    List.filter_eq_self.mpr hother]

end OwnNames

theorem names_of_hasValue {entries : List (Tree × Tree)} {fields : List (String × Value)}
    (h : (Tree.mapping entries).HasValue (.mapping fields)) :
    (fields.map Prod.fst).map some = (entries.map Prod.fst).map keyName? := by
  obtain ⟨_, hfields, hall⟩ := hasValue_mapping_iff.mp h
  cases hfields
  rw [List.map_map, List.map_map]
  exact (entrywise_iff.mp hall).1.symm

theorem keys_ownEntries (entries : List (Tree × Tree)) :
    (ownEntries entries).map Prod.fst = entries.map Prod.fst := by
  rw [ownEntries_eq, List.map_map]
  rfl

theorem keys_takeOut {pre post : List (Tree × Tree)} {e : Tree × Tree}
    (hpre : ∀ f ∈ pre, isMergeKey f.1 = false) (he : isMergeKey e.1 = true) :
    (takeOut (ownEntries (pre ++ e :: post))).map Prod.fst =
      pre.map Prod.fst ++ lastFirst (post.map Prod.fst) := by
  have happend : ownEntries (pre ++ e :: post) =
      ownEntries pre ++ (e.1, if isMergeKey e.1 then .ok .null else e.2.merged) :: ownEntries post := by
    simp only [ownEntries_eq, List.map_append, List.map_cons]
  have hown : ∀ f ∈ ownEntries pre, isMergeKey f.1 = false := by
    rw [ownEntries_eq]
    exact List.forall_mem_map.mpr hpre
  rw [happend, takeOut_of_key hown he, List.map_append, ← lastFirst_map, keys_ownEntries, keys_ownEntries]

section Mapping

variable {entries out : List (Tree × Tree)} {fields fields' : List (String × Value)}
  (h : Merging (.mapping entries) (.mapping out) (.mapping fields) (.mapping fields'))
include h

/-- The own keys stand first in a merged mapping, as they are left when the merge entry is taken out. -/
theorem names_of_merged {own : List String}
    (hown : own.map some = ((takeOut (ownEntries entries)).map Prod.fst).map keyName?) :
    ∃ added, fields'.map Prod.fst = own ++ added := by
  obtain ⟨sources, _, _, hentries, hout⟩ := merged_mapping_ok_iff.mp h.merged
  cases hentries
  obtain ⟨added, hadded⟩ := prefix_addAll (takeOut (ownEntries entries)) (sources.map mergedEntries)
  have hkeys : out.map Prod.fst = (takeOut (ownEntries entries)).map Prod.fst ++ added.map Prod.fst := by
    have hall := congrArg (List.map Prod.fst) (hadded.trans hout)
    rw [List.map_append, List.map_map] at hall
    exact hall.symm
  have hnames := names_of_hasValue h.value'
  rw [hkeys, List.map_append, ← hown] at hnames
  obtain ⟨own', added', hsplit, hown', _⟩ := List.map_eq_append_iff.mp hnames
  obtain rfl : own' = own := List.map_injective_iff.mpr (fun _ _ => Option.some.inj) hown'
  exact ⟨added', hsplit⟩

theorem ownNames_of_no_key (hnone : ∀ e ∈ entries, isMergeKey e.1 = false) :
    ownNames fields fields' = ownNames fields fields := by
  have htake : takeOut (ownEntries entries) = ownEntries entries := by
    apply takeOut_of_no_key
    rw [ownEntries_eq]
    exact List.forall_mem_map.mpr hnone
  have hown : (fields.map Prod.fst).map some =
      ((takeOut (ownEntries entries)).map Prod.fst).map keyName? := by
    rw [htake, keys_ownEntries, names_of_hasValue h.value]
  obtain ⟨added, hadded⟩ := names_of_merged h hown
  rw [ownNames_of_append hadded h.distinct'.1 (.of_eq (ownNames_self fields).symm), ownNames_self]

variable {pre post : List (Tree × Tree)} {e : Tree × Tree} (hsplit : entries = pre ++ e :: post)
  (he : isMergeKey e.1 = true)
include hsplit he

/-- The names split where the entries do. -/
theorem names_of_split :
    ∃ before after, fields.map Prod.fst = before ++ "<<" :: after ∧
      before.map some = (pre.map Prod.fst).map keyName? ∧
      after.map some = (post.map Prod.fst).map keyName? := by
  have hnames := names_of_hasValue h.value
  rw [hsplit, List.map_append, List.map_append, List.map_cons, List.map_cons] at hnames
  obtain ⟨before, _, hfields, hbefore, hnames⟩ := List.map_eq_append_iff.mp hnames
  obtain ⟨name, after, rfl, hname, hafter⟩ := List.map_eq_cons_iff.mp hnames
  rw [isMergeKey_iff.mp he] at hname
  obtain rfl : name = "<<" := Option.some.inj hname
  exact ⟨before, after, hfields, hbefore, hafter⟩

/-- Where there is a merge entry, the last entry comes to its place. -/
theorem ownNames_of_key :
    ∃ before after, fields.map Prod.fst = before ++ "<<" :: after ∧ before.length = pre.length ∧
      after.length = post.length ∧ ownNames fields fields = before ++ after ∧
      ownNames fields fields' = before ++ lastFirst after := by
  obtain ⟨before, after, hfields, hbefore, hafter⟩ := names_of_split h hsplit he
  obtain ⟨hself, hother⟩ := ownNames_of_split hfields h.distinct.1
  subst hsplit
  have hpre : ∀ f ∈ pre, isMergeKey f.1 = false := by
    intro f hf
    exact isMergeKey_of_split h.keys.entries he f (List.mem_append_left _ hf)
  have hown : (before ++ lastFirst after).map some =
      ((takeOut (ownEntries (pre ++ e :: post))).map Prod.fst).map keyName? := by
    rw [keys_takeOut hpre he, List.map_append, List.map_append, hbefore, ← lastFirst_map, ← lastFirst_map,
      hafter]
  obtain ⟨added, hadded⟩ := names_of_merged h hown
  have hperm : (before ++ lastFirst after).Perm (before ++ after) := (lastFirst_perm after).append_left before
  have hkept : (before ++ lastFirst after).filter (· != "<<") = before ++ lastFirst after :=
    List.filter_eq_self.mpr fun n hn => hother n (hperm.mem_iff.mp hn)
  refine ⟨before, after, hfields, ?_, ?_, hself, ?_⟩
  · simpa using congrArg List.length hbefore
  · simpa using congrArg List.length hafter
  · rw [ownNames_of_append hadded h.distinct'.1 (by rwa [hkept, hself]), hkept]

theorem ownNames_eq_of_key : ownNames fields fields' = ownNames fields fields ↔ post.length ≤ 1 := by
  obtain ⟨before, after, hfields, _, hlen, hself, hown⟩ := ownNames_of_key h hsplit he
  have hafter : after.Nodup := by
    have hnodup := h.distinct.1
    rw [hfields] at hnodup
    exact (List.nodup_cons.mp (List.Nodup.of_append_right hnodup)).2
  rw [hown, hself, List.append_cancel_left_eq, lastFirst_eq_iff hafter, hlen]

omit hsplit he

/-- The own names keep their order if at most one entry stands after the merge entry. -/
theorem ownNames_eq_iff :
    ownNames fields fields' = ownNames fields fields ↔
      ∀ pre e post, entries = pre ++ e :: post → isMergeKey e.1 = true → post.length ≤ 1 := by
  constructor
  · intro hsame pre e post hsplit he
    exact (ownNames_eq_of_key h hsplit he).mp hsame
  · intro hfew
    rcases split_mergeKey h.keys.entries with hnone | ⟨pre, e, post, hsplit, he, _⟩
    · exact ownNames_of_no_key h hnone
    · exact (ownNames_eq_of_key h hsplit he).mpr (hfew pre e post hsplit he)

end Mapping

end Yaml

/-- The own entries of a mapping under merging. At a position that does not go through a merge key, a merged
mapping has the own names in the order of the unmerged one, but for the last, which comes to the place of
the merge entry; the order is the same if at most one entry stands after it. -/
theorem own_order_of_merge {policy : MultiDocument} {source : String} {v v' : Value}
    (h : decode ⟨policy, false⟩ source = .ok v) (h' : decode ⟨policy, true⟩ source = .ok v')
    {p : List ValueStep} (hp : ValueStep.field "<<" ∉ p) {fields fields' : List (String × Value)}
    (hat : v.at? p = some (.mapping fields)) (hat' : v'.at? p = some (.mapping fields')) :
    ∃ t entries, sourceTree policy source = .ok t ∧ t.at? p = some (.mapping entries) ∧
      (ownNames fields fields' = ownNames fields fields ↔
        ∀ pre e post, entries = pre ++ e :: post → isMergeKey e.1 = true → post.length ≤ 1) ∧
      ∀ pre e post, entries = pre ++ e :: post → isMergeKey e.1 = true →
        ∃ before after, fields.map Prod.fst = before ++ "<<" :: after ∧ before.length = pre.length ∧
          ownNames fields fields = before ++ after ∧ ownNames fields fields' = before ++ lastFirst after := by
  obtain ⟨t, hsource, _, hvalue⟩ := exists_tree_of_decode h
  obtain ⟨s, t', hsource', ht, hmerged, hvalue'⟩ := exists_tree_of_merging h'
  obtain rfl : t = s := Except.ok.inj (hsource.symm.trans hsource')
  have hmerging : Merging t t' v v' :=
    ⟨ht, hmerged, hvalue, hvalue', keysDistinct_decode h, keysDistinct_decode h'⟩
  obtain ⟨entries, out, hentries, hboth⟩ := hmerging.at hp hat hat'
  refine ⟨t, entries, hsource, hentries, ownNames_eq_iff hboth, ?_⟩
  intro pre e post hsplit he
  obtain ⟨before, after, hnames, hlen, _, hself, hown⟩ := ownNames_of_key hboth hsplit he
  exact ⟨before, after, hnames, hlen, hself, hown⟩

theorem decode_merge_first : decode ⟨.reject, true⟩ "<<: {}\na: x\nb: y" =
    .ok (.mapping [("b", .string "y"), ("a", .string "x")]) := rfl

theorem decode_merge_first_plain : decode ⟨.reject, false⟩ "<<: {}\na: x\nb: y" =
    .ok (.mapping [("<<", .mapping []), ("a", .string "x"), ("b", .string "y")]) := rfl

/-- A merge entry that stands first turns the two entries after it around. -/
theorem merge_reorders :
    (decode ⟨.reject, false⟩ "<<: {}\na: x\nb: y" =
        .ok (.mapping [("<<", .mapping []), ("a", .string "x"), ("b", .string "y")]) ∧
      decode ⟨.reject, true⟩ "<<: {}\na: x\nb: y" =
        .ok (.mapping [("b", .string "y"), ("a", .string "x")])) ∧
      ¬∀ policy source v v' p fields fields', decode ⟨policy, false⟩ source = .ok v →
        decode ⟨policy, true⟩ source = .ok v' → ValueStep.field "<<" ∉ p →
        v.at? p = some (.mapping fields) → v'.at? p = some (.mapping fields') →
        ownNames fields fields' = ownNames fields fields := by
  refine ⟨⟨decode_merge_first_plain, decode_merge_first⟩, fun h => ?_⟩
  have hsame := h _ _ _ _ [] _ _ decode_merge_first_plain decode_merge_first List.not_mem_nil rfl rfl
  exact absurd hsame (by decide)

theorem merge_first_of_three :
    ∃ t entries, sourceTree .reject "<<: {}\na: x\nb: y" = .ok t ∧ t.at? [] = some (.mapping entries) ∧
      ∃ pre e post, entries = pre ++ e :: post ∧ isMergeKey e.1 = true ∧ ¬post.length ≤ 1 := by
  obtain ⟨t, entries, ht, hentries, hiff, _⟩ :=
    own_order_of_merge decode_merge_first_plain decode_merge_first List.not_mem_nil rfl rfl
  have hother := mt hiff.mpr (by decide)
  push Not at hother
  obtain ⟨pre, e, post, hsplit, he, hlen⟩ := hother
  exact ⟨t, entries, ht, hentries, pre, e, post, hsplit, he, by omega⟩

end ConfigModules
