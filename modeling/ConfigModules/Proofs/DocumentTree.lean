import ConfigModules.Proofs.Conversion
import ConfigModules.Proofs.Yaml.Document
import ConfigModules.Proofs.Yaml.MergedTree

/-! The trees of a source. All documents of a source make one tree under a policy, of which the decoded
value is the value. -/
namespace ConfigModules

open Yaml (Tree Document LoadFault)

/-- The documents that decoding looks at. -/
def documentsOf (source : String) : List Document :=
  if hasContent source.toList then Document.ofSource source.toList else []

theorem decode_eq (options : DecodeOptions) (source : String) :
    decode options source = match loadTrees options.mergeKeys (documentsOf source) with
      | .error e => .error (.malformed e)
      | .ok trees => combine options.multiDocument trees := rfl

/-! ## Loading -/

theorem loadTree_plain_ok_iff {d : Document} {t : Tree} : loadTree false d = .ok t ↔ d.tree = .ok t := by
  rw [loadTree]
  cases d.tree <;> simp

/-- Loading a document with merge keys is merging its tree. -/
theorem loadTree_merging_ok_iff {d : Document} {t' : Tree} :
    loadTree true d = .ok t' ↔ ∃ t, d.tree = .ok t ∧ t.merged = .ok t' := by
  rw [loadTree]
  cases d.tree with
  | error e => simp
  | ok t => cases h : t.merged <;> simp [h, Except.mapError]

theorem loadTrees_ok_iff {mergeKeys : Bool} {documents : List Document} {trees : List Tree} :
    loadTrees mergeKeys documents = .ok trees ↔
      List.Forall₂ (fun d t => loadTree mergeKeys d = .ok t) documents trees := by
  induction documents generalizing trees with
  | nil => simp [loadTrees, eq_comm]
  | cons d ds ih =>
    rw [loadTrees, List.forall₂_cons_left_iff]
    cases hd : loadTree mergeKeys d with
    | error e => simp
    | ok t =>
      cases hds : loadTrees mergeKeys ds with
      | error e =>
        simp only [← ih, hds]
        simp
      | ok ts =>
        simp only [← ih, hds]
        simp [eq_comm]

/-- The first document with a fault decides. -/
theorem loadTrees_of_fault {mergeKeys : Bool} {before after : List Document} {d : Document}
    {trees : List Tree} {e : LoadFault} (hbefore : loadTrees mergeKeys before = .ok trees)
    (hd : loadTree mergeKeys d = .error e) : loadTrees mergeKeys (before ++ d :: after) = .error e := by
  have hloaded := loadTrees_ok_iff.mp hbefore
  clear hbefore
  induction hloaded with
  | nil => simp [loadTrees, hd]
  | cons hfirst _ ih => simp [loadTrees, hfirst, ih]

/-- The value of a source with one document. -/
theorem decode_single {mergeKeys : Bool} {source : String} {d : Document} {t : Tree} {v : Value}
    (hd : documentsOf source = [d]) (ht : loadTree mergeKeys d = .ok t)
    (hv : documentValue [] t = .ok v) : decode ⟨.reject, mergeKeys⟩ source = .ok v := by
  have hload : loadTrees mergeKeys [d] = .ok [t] := loadTrees_ok_iff.mpr (.cons ht .nil)
  rw [decode_eq, hd, hload]
  exact hv

/-! ## One tree for all documents -/

/-- The tree of all documents under a policy. Under `reject` more than one have no value at all. -/
def joined : MultiDocument → List Tree → Tree
  | .array, trees => .sequence trees
  | .reject, [t] => t
  | .reject, _ => .null

/-- The tree of a source without any merging. -/
def sourceTree (policy : MultiDocument) (source : String) : Except LoadFault Tree :=
  (loadTrees false (documentsOf source)).map (joined policy)

theorem hasValue_of_documentValue {root : List ValueStep} {t : Tree} {v : Value}
    (h : documentValue root t = .ok v) : t.HasValue v :=
  (Tree.toValue_ok_iff.mp (documentValue_ok_iff.mp h)).2

theorem hasValue_of_documentValues {trees : List Tree} {i : Nat} {values : List Value}
    (h : documentValues i trees = .ok values) : List.Forall₂ Tree.HasValue trees values := by
  induction trees generalizing i values with
  | nil =>
    obtain rfl : [] = values := Except.ok.inj h
    exact .nil
  | cons t ts ih =>
    obtain ⟨v, hv, hmore⟩ := exists_of_bind_eq_ok h
    obtain ⟨vs, hvs, hvalues⟩ := exists_of_bind_eq_ok hmore
    obtain rfl : v :: vs = values := Except.ok.inj hvalues
    exact .cons (hasValue_of_documentValue hv) (ih hvs)

theorem hasValue_joined {policy : MultiDocument} {trees : List Tree} {v : Value}
    (h : combine policy trees = .ok v) : (joined policy trees).HasValue v := by
  cases policy with
  | array =>
    obtain ⟨values, hvalues, hv⟩ := exists_of_bind_eq_ok h
    obtain rfl : .sequence values = v := Except.ok.inj hv
    exact .sequence (hasValue_of_documentValues hvalues)
  | reject =>
    match trees, h with
    | [], h =>
      obtain rfl : .null = v := Except.ok.inj h
      exact .null
    | [t], h => exact hasValue_of_documentValue h

theorem keysDistinct_joined {trees : List Tree} (h : ∀ t ∈ trees, t.KeysDistinct) (policy : MultiDocument) :
    (joined policy trees).KeysDistinct := by
  cases policy with
  | array => exact .sequence h
  | reject =>
    match trees, h with
    | [], _ => exact .null
    | [t], h => exact h t List.mem_cons_self
    | _ :: _ :: _, _ => exact .null

theorem merged_joined {trees trees' : List Tree}
    (h : List.Forall₂ (fun t t' => t.merged = .ok t') trees trees') (policy : MultiDocument) :
    (joined policy trees).merged = .ok (joined policy trees') := by
  cases policy with
  | array => exact Yaml.merged_sequence_ok_iff.mpr ⟨trees', rfl, h⟩
  | reject =>
    cases h with
    | nil => rfl
    | cons ht hts =>
      cases hts with
      | nil => exact ht
      | cons => rfl

/-! ## The value of a source -/

variable {policy : MultiDocument} {source : String} {v : Value}

theorem keysDistinct_loadTrees {trees : List Tree} (h : loadTrees false (documentsOf source) = .ok trees) :
    ∀ t ∈ trees, t.KeysDistinct := by
  intro t ht
  obtain ⟨d, _, hd⟩ := exists_mem_left (loadTrees_ok_iff.mp h) ht
  exact Document.keysDistinct_tree (loadTree_plain_ok_iff.mp hd)

/-- What is decoded without merge keys is the value of the source's tree. -/
theorem exists_tree_of_decode (h : decode ⟨policy, false⟩ source = .ok v) :
    ∃ t, sourceTree policy source = .ok t ∧ t.KeysDistinct ∧ t.HasValue v := by
  rw [decode_eq] at h
  cases hload : loadTrees false (documentsOf source) with
  | error e => simp [hload] at h
  | ok trees =>
    rw [hload] at h
    exact ⟨joined policy trees, by rw [sourceTree, hload]; rfl,
      keysDistinct_joined (keysDistinct_loadTrees hload) policy, hasValue_joined h⟩

/-- What is decoded with merge keys is the value of the merged tree. -/
theorem exists_tree_of_merging (h : decode ⟨policy, true⟩ source = .ok v) :
    ∃ t t', sourceTree policy source = .ok t ∧ t.KeysDistinct ∧ t.merged = .ok t' ∧ t'.HasValue v := by
  rw [decode_eq] at h
  cases hload : loadTrees true (documentsOf source) with
  | error e => simp [hload] at h
  | ok trees' =>
    rw [hload] at h
    have hloaded := loadTrees_ok_iff.mp hload
    obtain ⟨trees, hplain⟩ : ∃ trees, List.Forall₂ (fun (d : Document) t => d.tree = .ok t)
        (documentsOf source) trees := by
      apply exists_forall₂
      intro d hd
      obtain ⟨t', _, ht'⟩ := exists_mem_right hloaded hd
      obtain ⟨t, ht, _⟩ := loadTree_merging_ok_iff.mp ht'
      exact ⟨t, ht⟩
    have hmerged : List.Forall₂ (fun t t' => t.merged = .ok t') trees trees' := by
      refine forall₂_trans ?_ hplain.flip hloaded
      intro t _ d t' hd ht'
      obtain ⟨u, hu, hmerged⟩ := loadTree_merging_ok_iff.mp ht'
      rw [hd] at hu
      cases hu
      exact hmerged
    have htrees : loadTrees false (documentsOf source) = .ok trees :=
      loadTrees_ok_iff.mpr (hplain.imp fun _ _ => loadTree_plain_ok_iff.mpr)
    exact ⟨joined policy trees, joined policy trees', by rw [sourceTree, htrees]; rfl,
      keysDistinct_joined (keysDistinct_loadTrees htrees) policy, merged_joined hmerged policy,
      hasValue_joined h⟩

end ConfigModules
