import ConfigModules.Proofs.DocumentTree
import ConfigModules.Proofs.FirstFault

/-! The two policies for several documents. Both load all documents before anything else, so that they
fail alike on the text; what they make of the trees then differs by their number alone. -/
namespace ConfigModules

open Yaml (Tree Document)

/-! ## The values of documents -/

variable {before after trees : List Tree} {values : List Value}

theorem documentValue_ok {t : Tree} {v : Value} (h : t.toValue = .ok v) (root : List ValueStep) :
    documentValue root t = .ok v := documentValue_ok_iff.mpr h

theorem documentValue_error {t : Tree} {f : KeyFault} (h : t.toValue = .error f) (root : List ValueStep) :
    documentValue root t = .error (.badKey root f) := by
  rw [documentValue, h]
  rfl

theorem documentValues_ok (h : List.Forall₂ (fun t v => t.toValue = .ok v) trees values) (i : Nat) :
    documentValues i trees = .ok values := by
  induction h generalizing i with
  | nil => rfl
  | cons hv _ ih =>
    rw [documentValues, documentValue_ok hv, ih]
    rfl

/-- The first document that does not convert fails the sequence, under its own index. -/
theorem documentValues_of_fault (h : List.Forall₂ (fun t v => t.toValue = .ok v) before values)
    {t : Tree} {f : KeyFault} (ht : t.toValue = .error f) (i : Nat) :
    documentValues i (before ++ t :: after) = .error (.badKey [.item (i + before.length)] f) := by
  induction h generalizing i with
  | nil =>
    rw [List.nil_append, documentValues, documentValue_error ht]
    rfl
  | cons hv _ ih =>
    rw [List.cons_append, documentValues, documentValue_ok hv, ih (i + 1), List.length_cons,
      Nat.add_right_comm, Nat.add_assoc]
    rfl

/-! ## The answers of the policies -/

/-- What the policies answer to the trees of all documents, first `reject` and then `array`. -/
inductive PolicyAnswers : List Tree → Except DecodeError Value → Except DecodeError Value → Prop
  | nothing : PolicyAnswers [] (.ok .null) (.ok (.sequence []))
  | one {t : Tree} {v : Value} : t.toValue = .ok v → PolicyAnswers [t] (.ok v) (.ok (.sequence [v]))
  | oneFault {t : Tree} {f : KeyFault} : t.toValue = .error f →
      PolicyAnswers [t] (.error (.badKey [] f)) (.error (.badKey [.item 0] f))
  | several {trees : List Tree} {values : List Value} : 2 ≤ trees.length →
      List.Forall₂ (fun t v => t.toValue = .ok v) trees values →
      PolicyAnswers trees (.error (.multipleDocuments trees.length)) (.ok (.sequence values))
  | severalFault {trees before after : List Tree} {t : Tree} {f : KeyFault} : 2 ≤ trees.length →
      trees = before ++ t :: after → (∀ b ∈ before, ∃ v, b.toValue = .ok v) → t.toValue = .error f →
      PolicyAnswers trees (.error (.multipleDocuments trees.length))
        (.error (.badKey [.item before.length] f))

theorem combine_reject_of_several (h : 2 ≤ trees.length) :
    combine .reject trees = .error (.multipleDocuments trees.length) := by
  match trees, h with
  | _ :: _ :: _, _ => rfl

theorem combine_array_ok (h : List.Forall₂ (fun t v => t.toValue = .ok v) trees values) :
    combine .array trees = .ok (.sequence values) := by
  rw [combine, documentValues_ok h]
  rfl

theorem combine_array_of_fault (h : List.Forall₂ (fun t v => t.toValue = .ok v) before values)
    {t : Tree} {f : KeyFault} (ht : t.toValue = .error f) :
    combine .array (before ++ t :: after) = .error (.badKey [.item before.length] f) := by
  rw [combine, documentValues_of_fault h ht, Nat.zero_add]
  rfl

theorem policyAnswers_single (t : Tree) :
    PolicyAnswers [t] (combine .reject [t]) (combine .array [t]) := by
  have hreject : combine .reject [t] = documentValue [] t := rfl
  cases ht : t.toValue with
  | ok v =>
    rw [hreject, documentValue_ok ht, combine_array_ok (.cons ht .nil)]
    exact .one ht
  | error f =>
    have harray : combine .array [t] = .error (.badKey [.item 0] f) := combine_array_of_fault .nil ht
    rw [hreject, documentValue_error ht, harray]
    exact .oneFault ht

theorem policyAnswers_combine (trees : List Tree) :
    PolicyAnswers trees (combine .reject trees) (combine .array trees) := by
  by_cases hmany : 2 ≤ trees.length
  · rw [combine_reject_of_several hmany]
    rcases forall₂_ok_or_first_error Tree.toValue trees with
      ⟨values, hvalues⟩ | ⟨before, t, after, f, hsplit, ⟨values, hvalues⟩, ht⟩
    · rw [combine_array_ok hvalues]
      exact .several hmany hvalues
    · have hbefore : ∀ b ∈ before, ∃ v, b.toValue = .ok v := by
        intro b hb
        obtain ⟨v, _, hv⟩ := exists_mem_right hvalues hb
        exact ⟨v, hv⟩
      have harray : combine .array trees = .error (.badKey [.item before.length] f) := by
        rw [hsplit, combine_array_of_fault hvalues ht]
      rw [harray]
      exact .severalFault hmany hsplit hbefore ht
  · match trees, hmany with
    | [], _ => exact .nothing
    | [t], _ => exact policyAnswers_single t
    | _ :: _ :: _, h => exact absurd (Nat.le_add_left 2 _) h

/-! ## The answers to a source -/

theorem path_item (i : Nat) : DecodeError.path [.item i] = "$[" ++ toString i ++ "]" := by
  rw [DecodeError.path, List.map_singleton, ValueStep.text]
  simp [← String.toList_inj]

/-- The texts of one key fault under the two policies differ in the root of the path. -/
theorem exists_messages (f : KeyFault) (i : Nat) :
    ∃ start rest, (DecodeError.badKey [] f).message = start ++ "$" ++ rest ∧
      (DecodeError.badKey [.item i] f).message = start ++ "$[" ++ toString i ++ "]" ++ rest := by
  refine ⟨f.problem.text ++ " at ", String.join (f.steps.map ValueStep.text), ?_, ?_⟩
  · exact DecodeError.message_badKey [] f
  · rw [DecodeError.message_badKey, path_item]
    simp only [String.append_assoc]

theorem policyAnswers_not_malformed {trees : List Tree} {r a : Except DecodeError Value}
    (h : PolicyAnswers trees r a) (e : Yaml.LoadFault) : r ≠ .error (.malformed e) := by
  rintro rfl
  cases h

/-- The two policies agree. A fault of any document, the last one too, is the answer of both before anything
else is looked at; without one the number of documents and the first that does not convert decide, and
what both report of a key differs in the root of its path. -/
theorem policies_agree (mergeKeys : Bool) (source : String) :
    ((∃ before d after e, documentsOf source = before ++ d :: after ∧
          (∀ b ∈ before, ∃ t, loadTree mergeKeys b = .ok t) ∧ loadTree mergeKeys d = .error e ∧
          decode ⟨.reject, mergeKeys⟩ source = .error (.malformed e) ∧
          decode ⟨.array, mergeKeys⟩ source = .error (.malformed e)) ∨
        ∃ trees, List.Forall₂ (fun d t => loadTree mergeKeys d = .ok t) (documentsOf source) trees ∧
          PolicyAnswers trees (decode ⟨.reject, mergeKeys⟩ source) (decode ⟨.array, mergeKeys⟩ source)) ∧
      ((∃ d ∈ documentsOf source, ∃ e, loadTree mergeKeys d = .error e) ↔
        ∃ e, decode ⟨.reject, mergeKeys⟩ source = .error (.malformed e) ∧
          decode ⟨.array, mergeKeys⟩ source = .error (.malformed e)) ∧
      ∀ f i, ∃ start rest, (DecodeError.badKey [] f).message = start ++ "$" ++ rest ∧
        (DecodeError.badKey [.item i] f).message = start ++ "$[" ++ toString i ++ "]" ++ rest := by
  rcases forall₂_ok_or_first_error (loadTree mergeKeys) (documentsOf source) with
    ⟨trees, htrees⟩ | ⟨before, d, after, e, hsplit, ⟨trees, htrees⟩, hd⟩
  · have hload := loadTrees_ok_iff.mpr htrees
    have hanswers : PolicyAnswers trees (decode ⟨.reject, mergeKeys⟩ source)
        (decode ⟨.array, mergeKeys⟩ source) := by
      rw [decode_eq, decode_eq, hload]
      exact policyAnswers_combine trees
    refine ⟨.inr ⟨trees, htrees, hanswers⟩, ?_, exists_messages⟩
    constructor
    · rintro ⟨d, hd, e, he⟩
      obtain ⟨t, _, ht⟩ := exists_mem_right htrees hd
      rw [ht] at he
      cases he
    · rintro ⟨e, hreject, _⟩
      exact absurd hreject (policyAnswers_not_malformed hanswers e)
  · have hload : loadTrees mergeKeys (documentsOf source) = .error e :=
      hsplit ▸ loadTrees_of_fault (loadTrees_ok_iff.mpr htrees) hd
    have hdecode : ∀ policy, decode ⟨policy, mergeKeys⟩ source = .error (.malformed e) := by
      intro policy
      rw [decode_eq, hload]
    have hbefore : ∀ b ∈ before, ∃ t, loadTree mergeKeys b = .ok t := by
      intro b hb
      obtain ⟨t, _, ht⟩ := exists_mem_right htrees hb
      exact ⟨t, ht⟩
    have hmem : d ∈ documentsOf source := by
      rw [hsplit]
      exact List.mem_append_right _ List.mem_cons_self
    refine ⟨.inl ⟨before, d, after, e, hsplit, hbefore, hd, hdecode _, hdecode _⟩, ?_, exists_messages⟩
    exact ⟨fun _ => ⟨e, hdecode _, hdecode _⟩, fun _ => ⟨d, hmem, e, hd⟩⟩

end ConfigModules
