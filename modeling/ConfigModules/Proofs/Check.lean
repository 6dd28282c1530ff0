import ConfigModules.Settings
import ConfigModules.Check
import ConfigModules.Proofs.Decoding
import ConfigModules.Proofs.Script.RoundTrip

/-! The check of one file with the loaders of the settings. A module that a loader makes is read back
as the value that it was made from, so only the reading and the decoding of the file can fail. -/
namespace ConfigModules

namespace Value

mutual

theorem same_mapNumbers : (v : Value) → (v.mapNumbers Script.observed).same v = true
  | .null => rfl
  | .boolean b => by simp [mapNumbers, same]
  | .number n => Script.same_observed n
  | .string s => by simp [mapNumbers, same]
  | .sequence items => sameItems_mapItems items
  | .mapping entries => sameEntries_mapEntries entries

theorem sameItems_mapItems :
    (items : List Value) → sameItems (mapItems Script.observed items) items = true
  | [] => rfl
  | v :: vs => by simp [mapItems, sameItems, same_mapNumbers v, sameItems_mapItems vs]

theorem sameEntries_mapEntries :
    (entries : List (String × Value)) → sameEntries (mapEntries Script.observed entries) entries = true
  | [] => rfl
  | (k, v) :: es => by simp [mapEntries, sameEntries, same_mapNumbers v, sameEntries_mapEntries es]

end

end Value

/-- Whether a path has one of the endings that the settings name. -/
def Settings.Claims (settings : Settings) (path : String) : Prop :=
  ∃ suffix ∈ settings.loader.suffixes, suffix.toList <:+ path.toList

namespace YamlLoader

/-- What goes wrong in loading is reading or decoding. -/
theorem moduleOfText_ok_iff {l : YamlLoader} {id : String} {reading : Except FileFault String}
    {result : LoadedModule} :
    l.moduleOfText id reading = .ok result ↔
      ∃ source v, reading = .ok source ∧ decode l.decoding source = .ok v ∧ moduleOf id v = result := by
  cases reading with
  | error fault => simp [moduleOfText]
  | ok source =>
    cases hdecode : decode l.decoding source with
    | error fault => simp [moduleOfText, hdecode]
    | ok v => simp [moduleOfText, hdecode]

end YamlLoader

namespace LoaderChain

section

variable (decoding : DecodeOptions) (path : String)

/-- What the loaders of settings make of a file that one of them claims, given what reading it gave. -/
def answerTo (reading : Except FileFault String) : Except LoadError (Option ClaimedModule) :=
  (YamlLoader.moduleOfText { decoding } path reading).map fun result => some ⟨"yaml", result⟩

/-- The first loader that claims a path decides, and all of them would decide alike. What no loader
claims is never read. -/
theorem offer_suffixes {m : Type → Type} [Monad m] [LawfulMonad m] (files : FileAccess m)
    (suffixes : List String) :
    offer files path (suffixes.map fun suffix => YamlLoader.loader { suffix, decoding }) =
      if suffixes.any (fun suffix => suffix.toList.isSuffixOf path.toList) then
        answerTo decoding path <$> files.readText path
      else pure (.ok none) := by
  induction suffixes with
  | nil => rfl
  | cons suffix suffixes ih =>
    have hload : (YamlLoader.loader { suffix, decoding }).load? files path =
        if suffix.toList.isSuffixOf path.toList then
          (fun reading => (YamlLoader.moduleOfText { decoding } path reading).map some) <$>
            files.readText path
        else pure (.ok none) := by
      rw [map_eq_pure_bind]
      rfl
    rw [List.map_cons, offer, hload, List.any_cons]
    cases hsuffix : suffix.toList.isSuffixOf path.toList with
    | false => simpa using ih
    | true =>
      simp only [if_true, Bool.true_or, map_eq_pure_bind, bind_assoc, pure_bind]
      congr 1
      funext reading
      rw [answerTo]
      cases YamlLoader.moduleOfText { decoding } path reading with
      | error fault => rfl
      | ok result => rfl

end

variable (files : FileAccess Id) (path : String) (decoding : DecodeOptions)

/-- What the loaders of settings answer once one of them claims a path. -/
def answer : Except LoadError (Option ClaimedModule) := answerTo decoding path (files.readText path)

/-- What the loaders of settings say of a file that decodes passes the comparison with it. -/
theorem compareWithFile_moduleOf {source : String} {v : Value} (h : decode decoding source = .ok v) :
    ∃ w, Script.evaluate (YamlLoader.moduleOf path v).code = .ok w ∧
      compareWithFile decoding w (.ok source) = .ok () := by
  refine ⟨_, Script.evaluate_moduleText (keysDistinct_decode h), ?_⟩
  simp [compareWithFile, h, v.same_mapNumbers]

variable {chain : LoaderChain Id} {files path}

theorem outcome_of_fault {fault : LoadError} (h : chain.load files path = Except.error fault) :
    (chain.checkFile files decoding path).outcome = .failed (.load fault) := by
  rw [checkFile, h]
  rfl

theorem outcome_of_declined (h : chain.load files path = Except.ok none) :
    (chain.checkFile files decoding path).outcome = .skipped := by
  rw [checkFile, h]
  rfl

theorem outcome_of_claimed {claimed : ClaimedModule} {v : Value}
    (h : chain.load files path = Except.ok (some claimed))
    (hv : Script.evaluate claimed.result.code = .ok v)
    (hfile : compareWithFile decoding v (files.readText path) = .ok ()) :
    (chain.checkFile files decoding path).outcome = .passed := by
  rw [checkFile, h]
  dsimp only [bind, pure]
  rw [hv]
  dsimp only
  rw [hfile]

end LoaderChain

/-- Why a claimed file cannot become a module. -/
def Unusable (decoding : DecodeOptions) (reading : Except FileFault String) : Prop :=
  (∃ fault, reading = .error fault) ∨ ∃ source fault, reading = .ok source ∧ decode decoding source = .error fault

def Usable (decoding : DecodeOptions) (reading : Except FileFault String) : Prop :=
  ∃ source v, reading = .ok source ∧ decode decoding source = .ok v

theorem not_usable_iff {decoding : DecodeOptions} {reading : Except FileFault String} :
    ¬Usable decoding reading ↔ Unusable decoding reading := by
  cases reading with
  | error fault => simp [Usable, Unusable]
  | ok source =>
    cases hdecode : decode decoding source with
    | error fault => simp [Usable, Unusable, hdecode]
    | ok v => simp [Usable, Unusable, hdecode]

section

variable {m : Type → Type} [Monad m] {settings : Settings} {chain : LoaderChain m}
  (h : settings.chain = .ok chain)
include h

theorem loaders_of_chain :
    chain.loaders = settings.loader.suffixes.map fun suffix =>
      YamlLoader.loader { suffix, decoding := settings.loader.decoding } := by
  simp only [Settings.chain] at h
  split_ifs at h
  cases h
  rfl

variable [LawfulMonad m]

/-- What no ending claims is declined before anything is asked of the files. -/
theorem declines_of_not_claims {path : String} (hpath : ¬settings.Claims path) (files : FileAccess m) :
    chain.load files path = pure (.ok none) := by
  rw [LoaderChain.load, loaders_of_chain h, LoaderChain.offer_suffixes, if_neg]
  simpa [Settings.Claims, List.isSuffixOf_iff_suffix] using hpath

/-- The text of a claimed file is asked for, and nothing else. -/
theorem answers_of_claims {path : String} (hpath : settings.Claims path) (files : FileAccess m) :
    chain.load files path =
      LoaderChain.answerTo settings.loader.decoding path <$> files.readText path := by
  rw [LoaderChain.load, loaders_of_chain h, LoaderChain.offer_suffixes, if_pos]
  simpa [Settings.Claims, List.isSuffixOf_iff_suffix] using hpath

end

variable {settings : Settings} {chain : LoaderChain Id} (h : settings.chain = .ok chain)
include h

theorem load_chain (files : FileAccess Id) (path : String) :
    chain.load files path =
      if settings.loader.suffixes.any (fun suffix => suffix.toList.isSuffixOf path.toList) then
        LoaderChain.answer files path settings.loader.decoding
      else Except.ok none := by
  rw [LoaderChain.load, loaders_of_chain h]
  exact LoaderChain.offer_suffixes settings.loader.decoding path files settings.loader.suffixes

theorem load_of_not_claims {path : String} (hpath : ¬settings.Claims path) (files : FileAccess Id) :
    chain.load files path = Except.ok none := declines_of_not_claims h hpath files

theorem load_of_claims {path : String} (hpath : settings.Claims path) (files : FileAccess Id) :
    chain.load files path = LoaderChain.answer files path settings.loader.decoding :=
  answers_of_claims h hpath files

theorem load_of_usable {files : FileAccess Id} {path : String} (hpath : settings.Claims path)
    (hfile : Usable settings.loader.decoding (files.readText path)) :
    ∃ claimed w, chain.load files path = Except.ok (some claimed) ∧
      Script.evaluate claimed.result.code = .ok w ∧
      compareWithFile settings.loader.decoding w (files.readText path) = .ok () := by
  obtain ⟨source, v, hread, hdecode⟩ := hfile
  obtain ⟨w, hw, hcompare⟩ := LoaderChain.compareWithFile_moduleOf path _ hdecode
  have hmodule : YamlLoader.moduleOfText { decoding := settings.loader.decoding } path
      (files.readText path) = .ok (YamlLoader.moduleOf path v) :=
    YamlLoader.moduleOfText_ok_iff.mpr ⟨source, v, hread, hdecode, rfl⟩
  refine ⟨⟨"yaml", YamlLoader.moduleOf path v⟩, w, ?_, hw, hread ▸ hcompare⟩
  rw [load_of_claims h hpath, LoaderChain.answer, LoaderChain.answerTo, hmodule]
  rfl

theorem load_of_unusable {files : FileAccess Id} {path : String} (hpath : settings.Claims path)
    (hfile : Unusable settings.loader.decoding (files.readText path)) :
    ∃ fault, chain.load files path = Except.error fault := by
  rw [load_of_claims h hpath, LoaderChain.answer, LoaderChain.answerTo]
  cases hmodule : YamlLoader.moduleOfText { decoding := settings.loader.decoding } path
      (files.readText path) with
  | error fault => exact ⟨fault, rfl⟩
  | ok result =>
    obtain ⟨source, v, hread, hdecode, _⟩ := YamlLoader.moduleOfText_ok_iff.mp hmodule
    exact absurd ⟨source, v, hread, hdecode⟩ (not_usable_iff.mpr hfile)

/-- The check accepts every good file: it skips what no ending claims, it passes what can be read and
decoded, and else it fails with the fault of loading and no other. -/
theorem check_accepts_good_files (files : FileAccess Id) (path : String) :
    ((chain.checkFile files settings.loader.decoding path).outcome = .skipped ↔
      ¬settings.Claims path) ∧
    ((∃ failure, (chain.checkFile files settings.loader.decoding path).outcome = .failed failure) ↔
      settings.Claims path ∧ Unusable settings.loader.decoding (files.readText path)) ∧
    (∀ failure, (chain.checkFile files settings.loader.decoding path).outcome = .failed failure ↔
      ∃ fault, chain.load files path = Except.error fault ∧ failure = .load fault ∧
        failure.message = fault.message) ∧
    ((chain.checkFile files settings.loader.decoding path).outcome = .passed ↔
      settings.Claims path ∧ Usable settings.loader.decoding (files.readText path)) := by
  by_cases hpath : settings.Claims path
  · by_cases hfile : Usable settings.loader.decoding (files.readText path)
    · obtain ⟨claimed, w, hload, hw, hcompare⟩ := load_of_usable h hpath hfile
      have houtcome := LoaderChain.outcome_of_claimed _ hload hw hcompare
      have husable : ¬Unusable settings.loader.decoding (files.readText path) :=
        fun hbad => not_usable_iff.mpr hbad hfile
      simp [houtcome, hload, hpath, hfile, husable]
    · have hbad := not_usable_iff.mp hfile
      obtain ⟨fault, hload⟩ := load_of_unusable h hpath hbad
      have houtcome := LoaderChain.outcome_of_fault settings.loader.decoding hload
      refine ⟨by simp [houtcome, hpath], by simp [houtcome, hpath, hbad], fun failure => ?_,
        by simp [houtcome, hfile]⟩
      rw [houtcome, hload]
      constructor
      · intro hfailure
        cases hfailure
        exact ⟨fault, rfl, rfl, rfl⟩
      · rintro ⟨fault', hfault, rfl, _⟩
        cases hfault
        rfl
  · have hload := load_of_not_claims h hpath files
    have houtcome := LoaderChain.outcome_of_declined settings.loader.decoding hload
    simp [houtcome, hload, hpath]

omit h

/-- A file that merges keys in its first document, one with a key that is a sequence, and no other. -/
def sampleText (path : String) : Except FileFault String :=
  match path with
  | "nav.yml" => .ok "<<: {a: 1}\nb: [x]\n--- !t\ny\n"
  | "keys.conf" => .ok "? [a]\n: 1\n"
  | _ => .error .missing

def sampleFiles : FileAccess Id where
  kind path := (sampleText path).map fun _ => .file
  entry path := (sampleText path).map fun _ => some .file
  read path := (sampleText path).map String.toUTF8
  list _ := Except.error .notDirectory
  place _ := Except.error .notDirectory

/-- Settings that ask for merging and for all documents: a good file, a file that does not decode, one that
is missing and one that is not claimed. -/
theorem check_of_sample_files :
    let settings : Settings := { loader := { suffixes := [".yml", ".conf"], decoding := ⟨.array, true⟩ } }
    ∃ chain : LoaderChain Id, settings.chain = .ok chain ∧
      (chain.checkFile sampleFiles ⟨.array, true⟩ "nav.yml").outcome = .passed ∧
      (∃ failure, (chain.checkFile sampleFiles ⟨.array, true⟩ "keys.conf").outcome = .failed failure ∧
        failure.message = "Failed to decode keys.conf: sequence used as a mapping key at $[0]") ∧
      (∃ failure, (chain.checkFile sampleFiles ⟨.array, true⟩ "gone.yml").outcome = .failed failure ∧
        failure.message = "Failed to read gone.yml: No such file or directory (os error 2)") ∧
      (chain.checkFile sampleFiles ⟨.array, true⟩ "nav.yaml").outcome = .skipped := by
  intro settings
  have hchain : settings.chain (m := Id) = .ok ⟨[YamlLoader.loader ⟨".yml", ⟨.array, true⟩⟩,
      YamlLoader.loader ⟨".conf", ⟨.array, true⟩⟩]⟩ := rfl
  have hyml (path : String) (h : ".yml".toList <:+ path.toList) : settings.Claims path :=
    ⟨".yml", List.mem_cons_self, h⟩
  refine ⟨_, hchain, ?good, ?undecodable, ?missing, ?unclaimed⟩
  case good =>
    obtain ⟨_, _, _, hpassed⟩ := check_accepts_good_files hchain sampleFiles "nav.yml"
    have hdecodes : (decode ⟨.array, true⟩ "<<: {a: 1}\nb: [x]\n--- !t\ny\n").isOk = true := by decide +kernel
    cases hdecode : decode ⟨.array, true⟩ "<<: {a: 1}\nb: [x]\n--- !t\ny\n" with
    | error fault =>
      rw [hdecode] at hdecodes
      cases hdecodes
    | ok v => exact hpassed.mpr ⟨hyml _ (by decide), _, v, rfl, hdecode⟩
  case undecodable =>
    obtain ⟨_, _, hfailed, _⟩ := check_accepts_good_files hchain sampleFiles "keys.conf"
    have hclaims : settings.Claims "keys.conf" := ⟨".conf", by decide, by decide⟩
    refine ⟨_, (hfailed _).mpr ⟨.undecodable "keys.conf" (.badKey [.item 0] ⟨[], .unsupported .sequence⟩),
      ?_, rfl, rfl⟩, by decide⟩
    rw [load_of_claims hchain hclaims]
    rfl
  case missing =>
    obtain ⟨_, _, hfailed, _⟩ := check_accepts_good_files hchain sampleFiles "gone.yml"
    refine ⟨_, (hfailed _).mpr ⟨.unreadable "gone.yml" .missing, ?_, rfl, rfl⟩, by decide⟩
    rw [load_of_claims hchain (hyml _ (by decide))]
    rfl
  case unclaimed =>
    obtain ⟨hskipped, _⟩ := check_accepts_good_files hchain sampleFiles "nav.yaml"
    refine hskipped.mpr ?_
    rintro ⟨suffix, hsuffix, hclaims⟩
    have hnone : ∀ suffix ∈ [".yml", ".conf"], ¬suffix.toList <:+ "nav.yaml".toList := by decide
    exact hnone suffix hsuffix hclaims

end ConfigModules
