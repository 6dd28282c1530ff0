import ConfigModules.Proofs.DocumentTree
import ConfigModules.Proofs.Yaml.BlankText

/-! The shortcut past the parser. Decoding looks for content line by line before it parses; what that
test and the parser take for blank differ, and a source between the two loses its content. -/
namespace ConfigModules

open Yaml (Tree isBlankFrom isBlankText isBreak isAllowed)
open Yaml.Document (Nothing Finds ofSource)

/-- Decoding without the shortcut: every source is parsed. -/
def decodeUnguarded (options : DecodeOptions) (source : String) : Except DecodeError Value :=
  match loadTrees options.mergeKeys (ofSource source.toList) with
  | .error e => .error (.malformed e)
  | .ok trees => combine options.multiDocument trees

theorem decode_of_content {source : String} (h : hasContent source.toList = true)
    (options : DecodeOptions) : decode options source = decodeUnguarded options source := by
  rw [decode, decodeChars, if_pos h]
  rfl

theorem decode_without_content {source : String} (h : hasContent source.toList = false)
    (mergeKeys : Bool) : decode ⟨.reject, mergeKeys⟩ source = .ok .null := by
  rw [decode, decodeChars, if_neg (Bool.eq_false_iff.mp h)]
  rfl

/-- The answer to the document of a blank text is the one to no documents. -/
theorem decodeUnguarded_of_nothing {source : String} (h : Nothing (ofSource source.toList))
    (mergeKeys : Bool) : decodeUnguarded ⟨.reject, mergeKeys⟩ source = .ok .null := by
  obtain ⟨m, hdocuments⟩ := h
  rw [decodeUnguarded, hdocuments]
  cases mergeKeys with
  | false => rfl
  | true => rfl

theorem decode_of_blank {source : String} (h : isBlankText source.toList = true)
    (mergeKeys : Bool) :
    decode ⟨.reject, mergeKeys⟩ source = decodeUnguarded ⟨.reject, mergeKeys⟩ source := by
  cases hcontent : hasContent source.toList with
  | true => exact decode_of_content hcontent _
  | false =>
    rw [decode_without_content hcontent]
    exact (decodeUnguarded_of_nothing (Yaml.Document.nothing_of_blank h) mergeKeys).symm

/-! ## The sequence of all documents -/

theorem length_loadTrees {mergeKeys : Bool} {documents : List Yaml.Document} {trees : List Yaml.Tree}
    (h : loadTrees mergeKeys documents = .ok trees) : trees.length = documents.length := by
  induction documents generalizing trees with
  | nil =>
    cases h
    rfl
  | cons d ds ih =>
    rw [loadTrees] at h
    cases ht : loadTree mergeKeys d with
    | error e => simp [ht] at h
    | ok t =>
      cases hts : loadTrees mergeKeys ds with
      | error e => simp [ht, hts] at h
      | ok ts =>
        obtain rfl : t :: ts = trees := by simpa [ht, hts] using h
        rw [List.length_cons, List.length_cons, ih hts]

theorem length_documentValues {i : Nat} {trees : List Yaml.Tree} {values : List Value}
    (h : documentValues i trees = .ok values) : values.length = trees.length := by
  induction trees generalizing i values with
  | nil =>
    cases h
    rfl
  | cons t ts ih =>
    obtain ⟨v, _, hmore⟩ := exists_of_bind_eq_ok h
    obtain ⟨vs, hvs, hvalues⟩ := exists_of_bind_eq_ok hmore
    cases hvalues
    rw [List.length_cons, List.length_cons, ih hvs]

theorem documents_ne_nil (source : List Char) : ofSource source ≠ [] := by
  intro hnil
  cases hblank : isBlankText source with
  | true =>
    obtain ⟨m, hdocuments⟩ := Yaml.Document.nothing_of_blank hblank
    rw [hnil] at hdocuments
    cases hdocuments
  | false =>
    obtain ⟨first, hfirst, _⟩ := Yaml.Document.finds_of_not_blank hblank
    rw [hnil] at hfirst
    cases hfirst

theorem decodeUnguarded_ne_empty (mergeKeys : Bool) (source : String) :
    decodeUnguarded ⟨.array, mergeKeys⟩ source ≠ .ok (.sequence []) := by
  intro h
  rw [decodeUnguarded] at h
  split at h
  · cases h
  · rename_i trees htrees
    obtain ⟨values, hvalues, hempty⟩ := exists_of_bind_eq_ok h
    cases hempty
    have hcount : (ofSource source.toList).length = 0 := by
      rw [← length_loadTrees htrees, ← length_documentValues hvalues]
      rfl
    exact documents_ne_nil _ (List.eq_nil_of_length_eq_zero hcount)

/-- Only the shortcut answers with the empty sequence. -/
theorem decode_eq_empty_iff (mergeKeys : Bool) (source : String) :
    decode ⟨.array, mergeKeys⟩ source = .ok (.sequence []) ↔ hasContent source.toList = false := by
  constructor
  · intro h
    cases hcontent : hasContent source.toList with
    | false => rfl
    | true =>
      rw [decode_of_content hcontent] at h
      exact absurd h (decodeUnguarded_ne_empty mergeKeys source)
  · intro h
    rw [decode, decodeChars, if_neg (Bool.eq_false_iff.mp h)]
    rfl

/-! ## A document that is null -/

theorem toValue_null_iff {t : Tree} : t.toValue = .ok .null ↔ t.untagged = .null := by
  induction t using Tree.induct with
  | tagged tag t ih => exact ih
  | sequence items _ => simp [Tree.toValue_sequence_ok_iff, Tree.untagged]
  | mapping entries _ => simp [Tree.toValue_mapping_ok_iff, Tree.untagged]
  | _ => simp [Tree.toValue, Tree.untagged]

theorem merged_of_null {t : Tree} (h : t.untagged = .null) : t.merged = .ok t := by
  induction t using Tree.induct with
  | null => rfl
  | tagged tag t ih => exact Yaml.merged_tagged_ok_iff.mpr ⟨t, rfl, ih h⟩
  | boolean | number | string | sequence | mapping => cases h

theorem null_of_merged {t t' : Tree} (h : t.merged = .ok t') (hnull : t'.untagged = .null) :
    t.untagged = .null := by
  induction t using Tree.induct generalizing t' with
  | tagged tag t ih =>
    obtain ⟨u, rfl, hu⟩ := Yaml.merged_tagged_ok_iff.mp h
    exact ih hu hnull
  | sequence items _ =>
    obtain ⟨items', rfl, _⟩ := Yaml.merged_sequence_ok_iff.mp h
    cases hnull
  | mapping entries _ =>
    obtain ⟨_, out, _, rfl, _⟩ := Yaml.merged_mapping_ok_iff.mp h
    cases hnull
  | null | boolean | number | string =>
    cases h
    exact hnull

/-- Merging makes no document null, and keeps one that is. -/
theorem loadTree_null_iff {mergeKeys : Bool} {d : Yaml.Document} :
    (∃ t, loadTree mergeKeys d = .ok t ∧ t.untagged = .null) ↔ ∃ t, d.tree = .ok t ∧ t.untagged = .null := by
  cases mergeKeys with
  | false => simp only [loadTree_plain_ok_iff]
  | true =>
    simp only [loadTree_merging_ok_iff]
    constructor
    · rintro ⟨t', ⟨t, ht, hmerged⟩, hnull⟩
      exact ⟨t, ht, null_of_merged hmerged hnull⟩
    · rintro ⟨t, ht, hnull⟩
      exact ⟨t, ⟨t, ht, merged_of_null hnull⟩, hnull⟩

/-- The stream is a single document, and that is null. -/
def IsNull (documents : List Yaml.Document) : Prop :=
  ∃ d t, documents = [d] ∧ d.tree = .ok t ∧ t.untagged = .null

theorem decodeUnguarded_eq_null_iff (mergeKeys : Bool) (source : String) :
    decodeUnguarded ⟨.reject, mergeKeys⟩ source = .ok .null ↔ IsNull (ofSource source.toList) := by
  have hne := documents_ne_nil source.toList
  rw [decodeUnguarded]
  generalize ofSource source.toList = documents at hne ⊢
  rcases documents with _ | ⟨d, _ | ⟨d', more⟩⟩
  · exact absurd rfl hne
  · have hsingle : IsNull [d] ↔ ∃ t, loadTree mergeKeys d = .ok t ∧ t.untagged = .null := by
      rw [loadTree_null_iff]
      simp [IsNull]
    rw [hsingle, loadTrees, loadTrees]
    cases loadTree mergeKeys d with
    | error e => simp
    | ok t => simp [combine, documentValue_ok_iff, toValue_null_iff]
  · have hseveral : ¬IsNull (d :: d' :: more) := by
      rintro ⟨_, _, hdocuments, _⟩
      cases hdocuments
    simp only [hseveral, iff_false]
    cases hload : loadTrees mergeKeys (d :: d' :: more) with
    | error e => simp
    | ok trees =>
      have hlength := length_loadTrees hload
      rcases trees with _ | ⟨t, _ | ⟨t', rest⟩⟩
      · simp at hlength
      · simp at hlength
      · simp [combine]

/-! ## The condition -/

/-- The shortcut keeps the answer of the parser to the sources with content, to the blank ones, in
which alone the parser finds nothing, and to those in which it finds a single document that is null. A
sequence of documents it keeps only for the sources with content. -/
theorem decode_eq_unguarded_iff (mergeKeys : Bool) (source : String) :
    (decode ⟨.reject, mergeKeys⟩ source = decodeUnguarded ⟨.reject, mergeKeys⟩ source ↔
      hasContent source.toList = true ∨ isBlankText source.toList = true ∨
        Finds (ofSource source.toList) ∧ IsNull (ofSource source.toList)) ∧
    (decode ⟨.array, mergeKeys⟩ source = decodeUnguarded ⟨.array, mergeKeys⟩ source ↔
      hasContent source.toList = true) ∧
    (decode ⟨.array, mergeKeys⟩ source = .ok (.sequence []) ∧ Finds (ofSource source.toList) ↔
      hasContent source.toList = false ∧ isBlankText source.toList = false) ∧
    (Finds (ofSource source.toList) ↔ isBlankText source.toList = false) := by
  have hfinds := Yaml.Document.finds_iff source.toList
  refine ⟨?reject, ?array, and_congr (decode_eq_empty_iff mergeKeys source) hfinds, hfinds⟩
  case reject =>
    constructor
    · intro hsame
      cases hcontent : hasContent source.toList with
      | true => exact .inl rfl
      | false =>
        cases hblank : isBlankText source.toList with
        | true => exact .inr (.inl rfl)
        | false =>
          have hnull := hsame ▸ decode_without_content hcontent mergeKeys
          exact .inr (.inr ⟨hfinds.mpr hblank, (decodeUnguarded_eq_null_iff mergeKeys source).mp hnull⟩)
    · rintro (hcontent | hblank | ⟨_, hnull⟩)
      · exact decode_of_content hcontent _
      · exact decode_of_blank hblank mergeKeys
      · cases hcontent : hasContent source.toList with
        | true => exact decode_of_content hcontent _
        | false =>
          rw [decode_without_content hcontent, (decodeUnguarded_eq_null_iff mergeKeys source).mpr hnull]
  case array =>
    constructor
    · intro hsame
      by_contra hcontent
      rw [(decode_eq_empty_iff mergeKeys source).mpr (Bool.eq_false_iff.mpr hcontent)] at hsame
      exact decodeUnguarded_ne_empty mergeKeys source hsame.symm
    · intro hcontent
      exact decode_of_content hcontent _

/-- A carriage return ends a comment for the parser and not for the shortcut: the mapping after it is
lost. -/
theorem shortcut_loses_mapping :
    decode {} "# c\ra: 1" = .ok .null ∧
      decodeUnguarded {} "# c\ra: 1" = .ok (.mapping [("a", .number (.unsigned 1))]) ∧
      ¬ ∀ (mergeKeys : Bool) (source : String),
        decode ⟨.reject, mergeKeys⟩ source = decodeUnguarded ⟨.reject, mergeKeys⟩ source := by
  have hguarded : decode {} "# c\ra: 1" = .ok .null := rfl
  have hparsed : decodeUnguarded {} "# c\ra: 1" =
      .ok (.mapping [("a", .number (.unsigned 1))]) := rfl
  refine ⟨hguarded, hparsed, fun h => ?_⟩
  have hsame := h false "# c\ra: 1"
  rw [hguarded, hparsed] at hsame
  cases hsame

/-! ## Where the two notions agree -/

/-- A character for which the shortcut and the parser have one notion of breaks and blanks. -/
def IsCommon (c : Char) : Prop :=
  isAllowed c = true ∧ c ≠ Yaml.byteOrderMark ∧ (isBreak c = true → c = '\n') ∧
    (isWhitespace c = true → c = '\n' ∨ c = ' ')

theorem hasContentFrom_of_common {cs : List Char} (h : ∀ c ∈ cs, IsCommon c)
    (lineStart inComment : Bool) :
    hasContentFrom inComment cs = !isBlankFrom lineStart inComment cs := by
  induction cs generalizing lineStart inComment with
  | nil => rfl
  | cons c cs ih =>
    obtain ⟨⟨-, hmark, hbreak, hspace⟩, hcs⟩ := List.forall_mem_cons.mp h
    rw [hasContentFrom, isBlankFrom]
    by_cases hline : c = '\n'
    · subst hline
      exact ih hcs true false
    · have hnobreak : isBreak c = false := Bool.eq_false_iff.mpr fun hc => hline (hbreak hc)
      rw [if_neg hline, hnobreak, if_neg Bool.false_ne_true]
      cases inComment with
      | true => exact ih hcs false true
      | false =>
        by_cases hblank : c = ' '
        · subst hblank
          exact ih hcs false false
        · have hnospace : isWhitespace c = false :=
            Bool.eq_false_iff.mpr fun hc => (hspace hc).elim hline hblank
          simp only [hnospace, hblank, hmark, Bool.or_self, Bool.false_and, decide_false,
            Bool.false_eq_true, if_false]
          split_ifs
          · exact ih hcs false true
          · rfl

/-- A source of common characters decodes as if it were always parsed. -/
theorem decode_of_common {source : String} (h : ∀ c ∈ source.toList, IsCommon c) (mergeKeys : Bool) :
    decode ⟨.reject, mergeKeys⟩ source = decodeUnguarded ⟨.reject, mergeKeys⟩ source := by
  have hmarks : source.toList.dropWhile (· = Yaml.byteOrderMark) = source.toList := by
    cases hchars : source.toList with
    | nil => rfl
    | cons c cs =>
      have hfirst : c ≠ Yaml.byteOrderMark := (h c (by rw [hchars]; exact List.mem_cons_self)).2.1
      exact List.dropWhile_cons_of_neg (by simpa using hfirst)
  have hallowed : source.toList.all isAllowed = true :=
    List.all_eq_true.mpr fun c hc => (h c hc).1
  have hcontent : hasContent source.toList = !isBlankText source.toList := by
    rw [hasContent, hmarks, isBlankText, hallowed, Bool.true_and]
    exact hasContentFrom_of_common h true false
  cases hblank : isBlankText source.toList with
  | true => exact decode_of_blank hblank mergeKeys
  | false =>
    rw [hblank] at hcontent
    exact decode_of_content hcontent _

end ConfigModules
