import ConfigModules.Command
import Mathlib.Tactic.SplitIfs

/-! The verbose option among the arguments. It may be added in front of arguments that do not have it, and
what they ask for stays as it is. -/
namespace ConfigModules

/-- The same options, the verbose one among them. -/
def GlobalOptions.loud (o : GlobalOptions) : GlobalOptions := { o with verbose := true }

namespace Request

/-- What an argument does with some options, and what it does once the verbose option is added to them. The
verbose option is never taken back, and no second one is accepted. -/
inductive Louder (o : GlobalOptions) : OptionStep → OptionStep → Prop
  | refuse : Louder o .refuse .refuse
  | ask {request : Request} {s : OptionStep} :
      (∀ o' action, request ≠ .act o' action) → Louder o (.ask request) s
  | goOn {o₁ : GlobalOptions} {s : OptionStep} :
      (o₁.verbose = false → o.verbose = false ∧ s = .goOn o₁.loud) → Louder o (.goOn o₁) s
  | awaitPath {o₁ : GlobalOptions} {s : OptionStep} :
      (o₁.verbose = false → o.verbose = false ∧ s = .awaitPath o₁.loud) → Louder o (.awaitPath o₁) s

variable {o : GlobalOptions}

theorem louder_ask {request : Request} {s : OptionStep} (h : request = .version ∨ ∃ topic, request = .help topic) :
    Louder o (.ask request) s := by
  refine .ask ?_
  rintro o' action rfl
  simp at h

theorem nameSettings?_loud (o : GlobalOptions) (value : String) :
    nameSettings? o.loud value = (nameSettings? o value).map GlobalOptions.loud := by
  rw [nameSettings?, nameSettings?, GlobalOptions.loud]
  split_ifs <;> rfl

theorem verbose_of_nameSettings? {o₁ : GlobalOptions} {value : String} (h : nameSettings? o value = some o₁) :
    o₁.verbose = o.verbose := by
  rw [nameSettings?] at h
  split_ifs at h
  cases h
  rfl

theorem louder_nameSettings (o : GlobalOptions) (value : String) :
    Louder o (.ofOptions? (nameSettings? o value)) (.ofOptions? (nameSettings? o.loud value)) := by
  rw [nameSettings?_loud]
  cases h : nameSettings? o value with
  | none => exact .refuse
  | some o₁ => exact .goOn fun hquiet => ⟨verbose_of_nameSettings? h ▸ hquiet, rfl⟩

theorem louder_beVerbose (o : GlobalOptions) :
    Louder o (.ofOptions? (beVerbose? o)) (.ofOptions? (beVerbose? o.loud)) := by
  cases h : o.verbose with
  | true =>
    simp only [beVerbose?, h, GlobalOptions.loud, if_true]
    exact .refuse
  | false =>
    simp only [beVerbose?, h]
    exact .goOn Bool.noConfusion

theorem Louder.of_verbose {o' : GlobalOptions} {s s' : OptionStep} (h : Louder o' s s')
    (ho' : o'.verbose = true) : Louder o s .refuse := by
  cases h with
  | refuse => exact .refuse
  | ask h => exact .ask h
  | goOn h => exact .goOn fun hquiet => absurd (h hquiet).1 (by simp [ho'])
  | awaitPath h => exact .awaitPath fun hquiet => absurd (h hquiet).1 (by simp [ho'])

theorem louder_awaitPath (o : GlobalOptions) : Louder o (.awaitPath o) (.awaitPath o.loud) :=
  .awaitPath fun hquiet => ⟨hquiet, rfl⟩

theorem louder_longOption (o : GlobalOptions) (name : List Char) :
    Louder o (longOption o name) (longOption o.loud name) := by
  unfold longOption
  dsimp only
  split
  · exact louder_awaitPath o
  · exact louder_nameSettings o _
  · exact louder_beVerbose o
  · exact louder_ask (.inl rfl)
  · exact louder_ask (.inr ⟨_, rfl⟩)
  · exact .refuse

theorem louder_shortOptions (o : GlobalOptions) (letters : List Char) :
    Louder o (shortOptions o letters) (shortOptions o.loud letters) := by
  induction o, letters using shortOptions.induct with
  | case1 o => exact .goOn fun hquiet => ⟨hquiet, rfl⟩
  | case2 o letters o₁ h ih =>
    -- A second letter of the verbose option is refused.
    have hverbose : o₁.verbose = true := by
      rw [beVerbose?] at h
      split_ifs at h
      cases h
      rfl
    have hloud : shortOptions o.loud ('v' :: letters) = .refuse := rfl
    rw [hloud, shortOptions, h]
    exact ih.of_verbose hverbose
  | case3 o letters h =>
    have hloud : shortOptions o.loud ('v' :: letters) = .refuse := rfl
    rw [hloud, shortOptions, h]
    exact .refuse
  | case4 o => exact louder_awaitPath o
  | case5 o value => exact louder_nameSettings o _
  | case6 o value hmore heq =>
    rw [shortOptions, shortOptions]
    exact louder_nameSettings o _
    all_goals assumption
  | case7 o letters => exact louder_ask (.inl rfl)
  | case8 o letters => exact louder_ask (.inr ⟨_, rfl⟩)
  | case9 o letters =>
    rw [shortOptions, shortOptions]
    exact .refuse
    all_goals assumption

theorem louder_optionStep (o : GlobalOptions) (a : Argument) :
    Louder o (optionStep o a) (optionStep o.loud a) := by
  cases a with
  | long name => exact louder_longOption o name
  | short letters => exact louder_shortOptions o letters
  | endOfOptions => exact .refuse
  | word text => exact .refuse

/-! ## The arguments of a command -/

/-- The same request under other options. -/
def under (p : GlobalOptions) : Request → Request
  | .act _ action => .act p action
  | request => request

theorem loadArguments_under (o p : GlobalOptions) (id : Option String) (json wordsOnly : Bool)
    (args : List String) :
    (loadArguments o id json wordsOnly args).map (under p) = loadArguments p id json wordsOnly args := by
  induction args generalizing id json wordsOnly with
  | nil => cases id <;> rfl
  | cons a more ih =>
    rw [loadArguments, loadArguments]
    cases (if wordsOnly then Argument.word a else Argument.ofString a) with
    | endOfOptions => exact ih ..
    | long name =>
      dsimp only
      split
      · split_ifs
        · rfl
        · exact ih ..
      · rfl
      · rfl
    | short letters =>
      dsimp only
      split_ifs <;> rfl
    | word text =>
      dsimp only
      split_ifs
      · rfl
      · exact ih ..

theorem checkArguments_under (o p : GlobalOptions) (directory : Option String) (wordsOnly : Bool)
    (args : List String) :
    (checkArguments o directory wordsOnly args).map (under p) = checkArguments p directory wordsOnly args := by
  induction args generalizing directory wordsOnly with
  | nil => rfl
  | cons a more ih =>
    rw [checkArguments, checkArguments]
    cases (if wordsOnly then Argument.word a else Argument.ofString a) with
    | endOfOptions => exact ih ..
    | long name =>
      dsimp only
      split_ifs <;> rfl
    | short letters =>
      dsimp only
      split_ifs <;> rfl
    | word text =>
      dsimp only
      split_ifs
      · rfl
      · exact ih ..

theorem commandArguments_under (o p : GlobalOptions) (command : String) (more : List String) :
    (commandArguments o command more).map (under p) = commandArguments p command more := by
  unfold commandArguments
  split
  · exact loadArguments_under o p none false false more
  · exact checkArguments_under o p none false more
  · unfold helpArguments
    split <;> rfl
  · rfl

/-- The options of a command are those that stand before it. -/
theorem commandArguments_act {o o' : GlobalOptions} {command : String} {more : List String}
    {action : Action} (h : commandArguments o command more = some (.act o' action)) :
    o' = o ∧ ∀ p, commandArguments p command more = some (.act p action) := by
  have hunder : ∀ p, commandArguments p command more = some (.act p action) := by
    intro p
    rw [← commandArguments_under o p, h]
    rfl
  refine ⟨?_, hunder⟩
  have hsame := h.symm.trans (hunder o)
  simpa using hsame

/-! ## All arguments -/

/-- Options that come out quiet went in quiet, and the same arguments make loud ones of loud ones. -/
theorem arguments_loud {o o' : GlobalOptions} {awaitsPath : Bool} {args : List String} {action : Action}
    (h : arguments o awaitsPath args = some (.act o' action)) (hquiet : o'.verbose = false) :
    o.verbose = false ∧ arguments o.loud awaitsPath args = some (.act o'.loud action) := by
  induction args generalizing o awaitsPath with
  | nil => cases awaitsPath <;> cases h
  | cons a more ih =>
    cases awaitsPath with
    | true =>
      rw [arguments] at h ⊢
      cases ha : Argument.ofString a with
      | word path =>
        rw [ha] at h
        obtain ⟨o₁, ho₁, hmore⟩ := Option.bind_eq_some_iff.mp h
        obtain ⟨hverbose, hloud⟩ := ih hmore
        refine ⟨(verbose_of_nameSettings? ho₁).symm.trans hverbose, ?_⟩
        simp [nameSettings?_loud, ho₁, hloud]
      | endOfOptions | long | short => simp [ha] at h
    | false =>
      have hstep := louder_optionStep o (Argument.ofString a)
      rw [arguments] at h ⊢
      generalize optionStep o (Argument.ofString a) = s at h hstep
      generalize optionStep o.loud (Argument.ofString a) = s' at hstep ⊢
      cases hstep with
      | refuse =>
        obtain ⟨rfl, hcommand⟩ := commandArguments_act h
        exact ⟨hquiet, hcommand _⟩
      | ask hask => exact absurd (Option.some.inj h) (hask _ _)
      | goOn hgoes =>
        obtain ⟨hverbose, hloud⟩ := ih h
        obtain ⟨ho, rfl⟩ := hgoes hverbose
        exact ⟨ho, hloud⟩
      | awaitPath hgoes =>
        obtain ⟨hverbose, hloud⟩ := ih h
        obtain ⟨ho, rfl⟩ := hgoes hverbose
        exact ⟨ho, hloud⟩

/-- The verbose option may stand before arguments that do not have it, and changes nothing else in what they
ask for. -/
theorem ofArguments?_verbose {o : GlobalOptions} {args : List String} {action : Action}
    (h : ofArguments? args = some (.act o action)) (hquiet : o.verbose = false) :
    ofArguments? ("--verbose" :: args) = some (.act o.loud action) :=
  (arguments_loud h hquiet).2

end Request
end ConfigModules
