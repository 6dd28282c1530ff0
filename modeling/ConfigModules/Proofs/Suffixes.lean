import ConfigModules.Proofs.Check

/-! The endings that settings name. A chain of loaders is made of the set of its endings: neither their
order nor a repetition shows in what it loads. -/
namespace ConfigModules

namespace Settings

/-- There is an ending, and none that every identifier has. -/
def HasGoodSuffixes (settings : Settings) : Prop :=
  settings.loader.suffixes ≠ [] ∧ "" ∉ settings.loader.suffixes

/-- The same options and the same set of endings. -/
structure Alike (settings settings' : Settings) : Prop where
  decoding : settings'.loader.decoding = settings.loader.decoding
  suffixes : ∀ suffix, suffix ∈ settings'.loader.suffixes ↔ suffix ∈ settings.loader.suffixes

theorem Alike.claims_iff {settings settings' : Settings} (h : settings.Alike settings') (id : String) :
    settings'.Claims id ↔ settings.Claims id := by
  simp only [Claims, h.suffixes]

variable {m : Type → Type} [Monad m]

theorem exists_chain_iff (settings : Settings) :
    (∃ chain : LoaderChain m, settings.chain = .ok chain) ↔ settings.HasGoodSuffixes := by
  have hempty : settings.loader.suffixes.any String.isEmpty = true ↔ "" ∈ settings.loader.suffixes := by
    simp [List.any_eq_true]
  rw [HasGoodSuffixes, ← hempty, Ne, ← List.isEmpty_iff]
  simp only [chain]
  split_ifs with hnone hsome
  · simp [hnone]
  · simp [hsome]
  · simp [hnone, hsome]

end Settings

theorem load_eq_of_alike {m : Type → Type} [Monad m] [LawfulMonad m] {settings settings' : Settings}
    {chain chain' : LoaderChain m} (h : settings.chain = .ok chain) (h' : settings'.chain = .ok chain')
    (halike : settings.Alike settings') (files : FileAccess m) (id : String) :
    chain'.load files id = chain.load files id := by
  by_cases hid : settings.Claims id
  · rw [answers_of_claims h hid, answers_of_claims h' ((halike.claims_iff id).mpr hid), halike.decoding]
  · rw [declines_of_not_claims h hid, declines_of_not_claims h' (mt (halike.claims_iff id).mp hid)]

theorem LoaderChain.answerTo_ne_none (decoding : DecodeOptions) (id : String)
    (reading : Except FileFault String) : answerTo decoding id reading ≠ .ok none := by
  rw [answerTo]
  cases YamlLoader.moduleOfText { decoding } id reading <;> simp [Except.map]

theorem load_eq_none_iff {settings : Settings} {chain : LoaderChain Id} (h : settings.chain = .ok chain)
    (files : FileAccess Id) (id : String) :
    chain.load files id = Except.ok none ↔ ¬settings.Claims id := by
  constructor
  · intro hnone hid
    rw [answers_of_claims h hid] at hnone
    exact LoaderChain.answerTo_ne_none _ _ _ hnone
  · intro hid
    exact declines_of_not_claims h hid files

/-- Only the set of endings matters. A chain is made of every list of endings that has one and has no empty
one; and two chains of the same options and the same endings load alike, from whatever files. What no
ending claims they decline without a question to the files, of all else they ask the text of that one file,
and what they answer follows from it and the options. -/
theorem only_suffix_set_matters {m : Type → Type} [Monad m] [LawfulMonad m] :
    (∀ settings : Settings,
      (∃ chain : LoaderChain m, settings.chain = .ok chain) ↔ settings.HasGoodSuffixes) ∧
    (∀ (settings settings' : Settings) (chain chain' : LoaderChain m),
      settings.chain = .ok chain → settings'.chain = .ok chain' → settings.Alike settings' →
      ∀ (files : FileAccess m) (id : String),
        chain'.load files id = chain.load files id ∧
        (¬settings.Claims id → chain.load files id = pure (.ok none)) ∧
        (settings.Claims id → chain.load files id =
          LoaderChain.answerTo settings.loader.decoding id <$> files.readText id)) ∧
    ∀ (settings settings' : Settings) (chain chain' : LoaderChain Id),
      settings.chain = .ok chain → settings'.chain = .ok chain' → settings.Alike settings' →
      ∀ (files files' : FileAccess Id) (id : String),
        (chain.load files id = Except.ok none ↔ ¬settings.Claims id) ∧
        (files'.read id = files.read id → chain'.load files' id = chain.load files id) := by
  refine ⟨Settings.exists_chain_iff, ?_, ?_⟩
  · intro settings settings' chain chain' h h' halike files id
    exact ⟨load_eq_of_alike h h' halike files id, fun hid => declines_of_not_claims h hid files,
      fun hid => answers_of_claims h hid files⟩
  · intro settings settings' chain chain' h h' halike files files' id
    refine ⟨load_eq_none_iff h files id, ?_⟩
    intro hread
    have htext : files'.readText id = files.readText id := by
      rw [FileAccess.readText, FileAccess.readText, hread]
    rw [load_eq_of_alike h h' halike files' id]
    by_cases hid : settings.Claims id
    · rw [answers_of_claims h hid, answers_of_claims h hid, htext]
    · rw [declines_of_not_claims h hid, declines_of_not_claims h hid]

/-- A file system in which every path leads to an empty file. -/
def emptyFiles : FileAccess Id where
  kind _ := Except.ok .file
  entry _ := Except.ok (some .file)
  read _ := Except.ok ⟨#[]⟩
  list _ := Except.error .notDirectory
  place _ := Except.error .notDirectory

/-- Endings of which one is a tail of the other, in two orders and with a repetition. -/
theorem overlapping_suffixes_load_alike :
    ∃ chain chain' : LoaderChain Id,
      Settings.chain { loader := { suffixes := [".yaml", ".nav.yaml"] } } = .ok chain ∧
      Settings.chain { loader := { suffixes := [".nav.yaml", ".yaml", ".nav.yaml"] } } = .ok chain' ∧
      chain'.load emptyFiles "site.nav.yaml" = chain.load emptyFiles "site.nav.yaml" ∧
      chain.load emptyFiles "site.nav.yaml" ≠ Except.ok none ∧
      chain.load emptyFiles "site.nav.yml" = Except.ok none := by
  obtain ⟨hvalid, hgeneral, hstored⟩ := only_suffix_set_matters (m := Id)
  obtain ⟨chain, hchain⟩ :=
    (hvalid { loader := { suffixes := [".yaml", ".nav.yaml"] } }).mpr ⟨by decide, by decide⟩
  obtain ⟨chain', hchain'⟩ :=
    (hvalid { loader := { suffixes := [".nav.yaml", ".yaml", ".nav.yaml"] } }).mpr
      ⟨by decide, by decide⟩
  have halike : Settings.Alike { loader := { suffixes := [".yaml", ".nav.yaml"] } }
      { loader := { suffixes := [".nav.yaml", ".yaml", ".nav.yaml"] } } := by
    refine ⟨rfl, ?_⟩
    intro suffix
    simp only [List.mem_cons, List.not_mem_nil, or_false]
    tauto
  have hload := hgeneral _ _ chain chain' hchain hchain' halike emptyFiles "site.nav.yaml"
  have hnone := fun id => (hstored _ _ chain chain' hchain hchain' halike emptyFiles emptyFiles id).1
  refine ⟨chain, chain', hchain, hchain', hload.1, ?_, ?_⟩
  · rw [Ne, hnone, not_not]
    exact ⟨".yaml", List.mem_cons_self, by decide⟩
  · rw [hnone]
    rintro ⟨suffix, hsuffix, hclaims⟩
    have hneither : ∀ suffix ∈ [".yaml", ".nav.yaml"], ¬suffix.toList <:+ "site.nav.yml".toList := by
      decide
    exact hneither suffix hsuffix hclaims

end ConfigModules
