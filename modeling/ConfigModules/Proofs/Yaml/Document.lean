import ConfigModules.Yaml.Document
import ConfigModules.Proofs.Yaml.Tree
import ConfigModules.Proofs.Yields

/-! Trees of documents. A key that comes again is a fault, so that no mapping in them has a key twice. -/
namespace ConfigModules.Yaml

open Tree (KeysDistinct)

namespace Resolution

theorem yields_ofInteger {negative : Bool} {n : Nat} {r : Except ScalarFault Tree}
    (h : ofInteger negative n = some r) : Yields KeysDistinct r := by
  rw [ofInteger] at h
  split_ifs at h
  · cases h
    exact yields_ok (.number _)
  · cases h
    exact yields_ok (.number _)
  · cases h
    exact yields_error _
  · cases h
    exact yields_ok (.number _)
  · cases h
    exact yields_error _

theorem yields_integerTree? {cs : List Char} {r : Except ScalarFault Tree}
    (h : integerTree? cs = some r) : Yields KeysDistinct r := by
  obtain ⟨⟨negative, n⟩, _, hr⟩ := Option.bind_eq_some_iff.mp h
  exact yields_ofInteger hr

theorem yields_plain (text : String) : Yields KeysDistinct (plain text) := by
  rw [plain]
  refine yields_ite (yields_ok .null) ?_
  cases boolean? text.toList with
  | some b => exact yields_ok (.boolean b)
  | none =>
    cases hinteger : integerTree? text.toList with
    | some r => exact yields_integerTree? hinteger
    | none =>
      refine yields_ite (yields_ok (.string text)) ?_
      cases real? text.toList with
      | some x => exact yields_ok (.number _)
      | none => exact yields_ok (.string text)

theorem yields_ofKind (kind : ScalarKind) (text : String) : Yields KeysDistinct (ofKind kind text) := by
  cases kind with
  | boolean =>
    cases h : boolean? text.toList with
    | some b => simpa [ofKind, h] using yields_ok (.boolean b)
    | none => simpa [ofKind, h] using yields_error _
  | integer =>
    cases h : integerTree? text.toList with
    | some r => simpa [ofKind, h] using yields_integerTree? h
    | none => simpa [ofKind, h] using yields_error _
  | real =>
    cases h : real? text.toList with
    | some x => simpa [ofKind, h] using yields_ok (.number _)
    | none => simpa [ofKind, h] using yields_error _
  | null =>
    cases h : isNullWord text.toList with
    | true => simpa [ofKind, h] using yields_ok .null
    | false => simpa [ofKind, h] using yields_error _

theorem yields_scalar (tag : Option TagBytes) (text : String) (style : ScalarStyle) :
    Yields KeysDistinct (scalar tag text style) := by
  cases tag with
  | none => exact yields_ite (yields_plain text) (yields_ok (.string text))
  | some tag =>
    rw [scalar]
    cases wantedKind? tag with
    | some kind => exact yields_ofKind kind text
    | none => exact yields_ite (yields_plain text) (yields_ok (.string text))

end Resolution

namespace Document

/-- What is read and the place after it: a tree with distinct keys. -/
def ReadsDistinct (r : Except LoadFault (Tree × Walk)) : Prop := Yields (fun read => read.1.KeysDistinct) r

theorem keysDistinct_cons {k v : Tree} {entries : List (Tree × Tree)}
    (h : (Tree.mapping entries).KeysDistinct) (hnew : Tree.hasKey k entries = false)
    (hk : k.KeysDistinct) (hv : v.KeysDistinct) : (Tree.mapping ((k, v) :: entries)).KeysDistinct := by
  have hother : ∀ e ∈ entries, k.same e.1 = false := by simpa [Tree.hasKey] using hnew
  cases h with
  | mapping hapart hkeys hvalues =>
    refine .mapping (List.pairwise_cons.mpr ⟨?_, hapart⟩) (List.forall_mem_cons.mpr ⟨hk, hkeys⟩)
      (List.forall_mem_cons.mpr ⟨hv, hvalues⟩)
    intro e he
    refine ⟨hother e he, Bool.eq_false_iff.mpr ?_⟩
    intro hsame
    exact Bool.eq_false_iff.mp (hother e he) (Tree.same_symm (hkeys e he) hk hsame)

theorem keysDistinct_reverse {entries : List (Tree × Tree)} (h : (Tree.mapping entries).KeysDistinct) :
    (Tree.mapping entries.reverse).KeysDistinct := by
  have hperm := (List.reverse_perm entries).symm
  cases h with
  | mapping hapart hkeys hvalues =>
    refine .mapping ((hperm.pairwise_iff Tree.Apart.symm).mp hapart) ?_ ?_
    · simpa only [List.mem_reverse] using hkeys
    · simpa only [List.mem_reverse] using hvalues

/-- All that is read with some fuel has distinct keys, if the elements or entries before have. -/
structure AllDistinct (d : Document) (fuel : Nat) : Prop where
  node : ∀ p w, ReadsDistinct (d.readNode fuel p w)
  items : ∀ p i items w, (∀ t ∈ items, t.KeysDistinct) → ReadsDistinct (d.readItems fuel p i items w)
  entries : ∀ p m entries w, (Tree.mapping entries).KeysDistinct →
    ReadsDistinct (d.readEntries fuel p m entries w)

section Step

variable {d : Document} {fuel : Nat} (h : AllDistinct d fuel)
include h

theorem readsDistinct_node (p : Place) (w : Walk) : ReadsDistinct (d.readNode (fuel + 1) p w) := by
  rw [readNode]
  cases nextTag? p w with
  | some tag =>
    cases hread : d.readNode fuel { p with tagged := true } w with
    | error e => exact yields_error e
    | ok r => exact yields_ok (.tagged tag (h.node _ _ _ hread))
  | none =>
    cases w.rest with
    | nil => exact yields_error _
    | cons item rest =>
      obtain ⟨kind, m⟩ := item
      cases kind with
      | aliasTo number =>
        refine yields_ite (yields_error _) ?_
        dsimp only
        cases hread : d.readNode fuel { p with tagged := false }
            ⟨d.items.drop ((d.anchors.lookup number).getD d.items.length), w.aliases + 1⟩ with
        | error e => exact yields_error e
        | ok r => exact yields_ok (h.node _ _ r hread)
      | scalar tag text style =>
        dsimp only
        cases hscalar : Resolution.scalar (if p.tagged then none else tag) text style with
        | error e => exact yields_error _
        | ok t => exact yields_ok (Resolution.yields_scalar _ _ _ t hscalar)
      | sequenceStart tag => exact yields_ite (yields_error _) (h.items _ _ _ _ (List.forall_mem_nil _))
      | mappingStart tag =>
        have hempty : (Tree.mapping []).KeysDistinct :=
          .mapping .nil (List.forall_mem_nil _) (List.forall_mem_nil _)
        exact yields_ite (yields_error _) (h.entries _ _ _ _ hempty)
      | nothing => exact yields_ok .null
      | sequenceEnd => exact yields_error _
      | mappingEnd => exact yields_error _

theorem readsDistinct_items (p : Place) (i : Nat) {items : List Tree} (w : Walk)
    (hitems : ∀ t ∈ items, t.KeysDistinct) : ReadsDistinct (d.readItems (fuel + 1) p i items w) := by
  rw [readItems]
  split
  · exact yields_error _
  · refine yields_ok (.sequence ?_)
    simpa only [List.mem_reverse] using hitems
  · cases hread : d.readNode fuel (p.inner (.index i)) w with
    | error e => exact yields_error e
    | ok r =>
      exact h.items _ _ _ _ (List.forall_mem_cons.mpr ⟨h.node _ _ r hread, hitems⟩)

theorem readsDistinct_entries (p : Place) (m : Mark) {entries : List (Tree × Tree)} (w : Walk)
    (hentries : (Tree.mapping entries).KeysDistinct) :
    ReadsDistinct (d.readEntries (fuel + 1) p m entries w) := by
  rw [readEntries]
  split
  · exact yields_error _
  · exact yields_ok (keysDistinct_reverse hentries)
  · dsimp only
    cases hkey : d.readNode fuel p w with
    | error e => exact yields_error e
    | ok r =>
      obtain ⟨k, w'⟩ := r
      dsimp only
      split_ifs with hnew
      · exact yields_error _
      · cases hvalue : d.readNode fuel (p.inner (keyStep w)) w' with
        | error e => exact yields_error e
        | ok r =>
          exact h.entries _ _ _ _ (keysDistinct_cons hentries
            (Bool.eq_false_iff.mpr hnew) (h.node _ _ _ hkey) (h.node _ _ r hvalue))

end Step

theorem allDistinct (d : Document) (fuel : Nat) : AllDistinct d fuel := by
  induction fuel with
  | zero =>
    exact ⟨fun _ _ => yields_error _, fun _ _ _ _ _ => yields_error _, fun _ _ _ _ _ => yields_error _⟩
  | succ fuel ih =>
    exact ⟨readsDistinct_node ih, fun p i _ w => readsDistinct_items ih p i w,
      fun p m _ w => readsDistinct_entries ih p m w⟩

/-- No mapping in the tree of a document has a key twice. -/
theorem keysDistinct_tree {d : Document} {t : Tree} (h : d.tree = .ok t) : t.KeysDistinct := by
  rw [tree] at h
  cases hread : d.readNode (200 * (d.items.length + 10)) ⟨[], depthLimit, false⟩ ⟨d.items, 0⟩ with
  | error e => simp [hread] at h
  | ok r =>
    have hr : r.1.KeysDistinct := (allDistinct d _).node _ _ r hread
    cases hfault : d.fault with
    | some fault => simp [hread, hfault] at h
    | none =>
      obtain rfl : r.1 = t := by simpa [hread, hfault] using h
      exact hr

end Document

end ConfigModules.Yaml
