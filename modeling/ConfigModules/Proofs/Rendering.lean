import ConfigModules.Loader.Rendering
import ConfigModules.Proofs.JsonText

/-! The two renderings of a module. The JSON text is taken through the grammar from its end to its front: what
is escaped spells the characters that it came from, whatever stands behind it. -/
namespace ConfigModules

/-! ## What is written of a string -/

theorem Hex.value?_digitChar {n : Nat} (h : n < 16) : Hex.value? n.digitChar = some n := by
  have hall : ∀ n < 16, Hex.value? n.digitChar = some n := by decide
  exact hall n h

theorem Hex.hexNumeral_fourDigits {n : Nat} (h : n < 0x10000) : Script.HexNumeral (Hex.fourDigits n) n := by
  rw [Hex.fourDigits_eq h]
  refine ⟨[n / 4096, n / 256 % 16, n / 16 % 16, n % 16], ?_, ?_⟩
  · simp only [List.map_cons, List.map_nil, List.forall₂_cons, List.Forall₂.nil, and_true]
    exact ⟨Hex.value?_digitChar (by omega), Hex.value?_digitChar (by omega), Hex.value?_digitChar (by omega),
      Hex.value?_digitChar (by omega)⟩
  · simp only [List.foldl_cons, List.foldl_nil]
    omega

namespace Json

/-- A character as it is written spells itself, whatever the string goes on with. -/
theorem Spells.escape {cs rest : List Char} {us : List Nat} (h : Spells cs us rest) (c : Char) :
    Spells (JsonText.escape c ++ cs) (Script.codeUnits c.toNat ++ us) rest := by
  unfold JsonText.escape
  split_ifs with hquote hslash hb hf hn hr ht hcoded
  · subst hquote
    exact h.letter (by decide)
  · subst hslash
    exact h.letter (by decide)
  · subst hb
    exact h.letter (by decide)
  · subst hf
    exact h.letter (by decide)
  · subst hn
    exact h.letter (by decide)
  · subst hr
    exact h.letter (by decide)
  · subst ht
    exact h.letter (by decide)
  · have hunits : Script.codeUnits c.toNat = [c.toNat] := if_pos (by omega)
    have hdigits := Hex.hexNumeral_fourDigits (n := c.toNat) (by omega)
    rw [Hex.fourDigits_eq (by omega)] at hdigits ⊢
    rw [hunits]
    exact h.unit hdigits
  · exact h.char (Nat.le_of_not_lt hcoded) hquote hslash

theorem spells_flatMap_escape (s rest : List Char) :
    Spells (s.flatMap JsonText.escape ++ '\x22' :: rest) (unitsOf s) rest := by
  induction s with
  | nil => exact .close rest
  | cons c s ih =>
    rw [List.flatMap_cons, List.append_assoc, unitsOf, List.flatMap_cons]
    exact ih.escape c

theorem toList_quoted (s : String) :
    (JsonText.quoted s).toList = '\x22' :: (s.toList.flatMap JsonText.escape ++ ['\x22']) :=
  String.toList_ofList

theorem begins_quoted (s : String) (rest : List Char) :
    Begins ((JsonText.quoted s).toList ++ rest) (.string s) rest := by
  rw [toList_quoted, List.cons_append, List.append_assoc]
  exact .string (spells_flatMap_escape s.toList rest)

theorem member_quoted {cs rest : List Char} {v : Json} (h : Begins cs v rest) (k : String) :
    Member ((JsonText.quoted k).toList ++ ':' :: ' ' :: cs) (k, v) rest := by
  have hv : Begins (skip (' ' :: cs)) v rest := by
    show Begins (skip cs) v rest
    rwa [h.skip_eq]
  rw [toList_quoted, List.cons_append, List.append_assoc]
  exact .named (spells_flatMap_escape k.toList _) rfl hv

/-- The blanks before a member, on a line of its own at a depth. -/
def indent (depth : Nat) : List Char := '\n' :: List.replicate (2 * depth) ' '

theorem skip_indent (depth : Nat) (cs : List Char) : skip (indent depth ++ cs) = skip cs := by
  have hblank : ∀ c ∈ indent depth, isBlank c = true := by
    refine List.forall_mem_cons.mpr ⟨rfl, fun c hc => ?_⟩
    rw [List.eq_of_mem_replicate hc]
    rfl
  exact List.dropWhile_append_of_pos hblank

namespace Members

variable {cs rest : List Char} {ms : List (String × Json)} (h : Members cs ms rest) (depth : Nat)
include h

theorem begins : Begins ('\x7b' :: (indent depth ++ cs)) (.object ms) rest := by
  have hms : Members (skip (indent depth ++ cs)) ms rest := by rwa [skip_indent, h.skip_eq]
  exact .object hms

theorem after {start : List Char} {m : String × Json} (hm : Member start m (',' :: (indent depth ++ cs))) :
    Members start (m :: ms) rest := by
  have hms : Members (skip (indent depth ++ cs)) ms rest := by rwa [skip_indent, h.skip_eq]
  exact .cons hm rfl hms

end Members

end Json

/-! ## The JSON text of a module -/

namespace LoadedModule

open Json (indent)

theorem toList_json (loaded : LoadedModule) :
    loaded.json.toList = '\x7b' :: (indent 1 ++ ((JsonText.quoted "code").toList ++ ':' :: ' ' ::
      ((JsonText.quoted loaded.code).toList ++ ',' :: (indent 1 ++ ((JsonText.quoted "map").toList ++ ':' :: ' ' ::
        '\x7b' :: (indent 2 ++ ((JsonText.quoted "mappings").toList ++ ':' :: ' ' ::
          ((JsonText.quoted loaded.map.mappings).toList ++ (indent 1 ++ '\x7d' :: (indent 0 ++ ['\x7d'])))))))))) := by
  have hcode : "\x7b\n  \"code\": ".toList =
      '\x7b' :: (indent 1 ++ ((JsonText.quoted "code").toList ++ [':', ' '])) := by decide
  have hmap : ",\n  \"map\": \x7b\n    \"mappings\": ".toList =
      ',' :: (indent 1 ++ ((JsonText.quoted "map").toList ++ ':' :: ' ' :: '\x7b' ::
        (indent 2 ++ ((JsonText.quoted "mappings").toList ++ [':', ' '])))) := by decide
  have hend : "\n  \x7d\n\x7d".toList = indent 1 ++ '\x7d' :: (indent 0 ++ ['\x7d']) := by decide
  simp only [json, String.toList_append, hcode, hmap, hend, List.cons_append, List.append_assoc, List.nil_append]

/-- The JSON text of a module denotes the code and the map. -/
theorem denotes_json (loaded : LoadedModule) : Json.Denotes loaded.json
    (.object [("code", .string loaded.code), ("map", .object [("mappings", .string loaded.map.mappings)])]) := by
  have hmappings := Json.member_quoted (Json.begins_quoted loaded.map.mappings
    (indent 1 ++ '\x7d' :: (indent 0 ++ ['\x7d']))) "mappings"
  have hmap := (Json.Members.last hmappings rfl).begins 2
  have hlast := Json.Members.last (Json.member_quoted hmap "map") rfl
  have hboth := hlast.after 1 (Json.member_quoted (Json.begins_quoted loaded.code _) "code")
  refine ⟨[], ?_, rfl⟩
  rw [toList_json]
  exact hboth.begins 1

end LoadedModule

namespace LoaderChain

/-- The renderings of an identifier agree. A fault of loading, or the lack of a loader, is the error of both. A
claimed module has both; then the JSON text denotes an object of the code and the map, and nothing else, the code
being the text of the plain rendering and the map holding the mappings of the loader that claimed the identifier. -/
theorem renderings_agree (chain : LoaderChain Id) (files : FileAccess Id) (id : String) :
    (∃ fault, chain.load files id = Except.error fault ∧
      ∀ json, chain.render files id json = Except.error (.load fault)) ∨
    (chain.load files id = Except.ok none ∧ ∀ json, chain.render files id json = Except.error (.unclaimed id)) ∨
    ∃ claimed plain json, chain.load files id = Except.ok (some claimed) ∧
      chain.render files id false = Except.ok plain ∧ chain.render files id true = Except.ok json ∧
      plain.text = claimed.result.code ∧ plain.notes = json.notes ∧
      ∀ v, Json.Denotes json.text v ↔
        v = .object [("code", .string plain.text),
          ("map", .object [("mappings", .string claimed.result.map.mappings)])] := by
  have hrender : ∀ json, chain.render files id json = renderingOf id json (chain.load files id) := fun _ => rfl
  simp only [hrender]
  rcases (chain.load files id : Except LoadError (Option ClaimedModule)) with fault | _ | claimed
  · exact .inl ⟨fault, rfl, fun _ => rfl⟩
  · exact .inr (.inl ⟨rfl, fun _ => rfl⟩)
  · have hjson := claimed.result.denotes_json
    refine .inr (.inr ⟨claimed, _, _, rfl, rfl, rfl, rfl, rfl, fun v => ⟨fun hv => hv.unique hjson, ?_⟩⟩)
    rintro rfl
    exact hjson

end LoaderChain

end ConfigModules
