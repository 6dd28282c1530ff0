import ConfigModules.Loader.Yaml
import ConfigModules.Loader.Chain

/-! Chains as ordered choices. What a chain answers is the answer of its first loader that does not decline,
so that loaders registered later are asked only where all before them decline. -/
namespace ConfigModules

namespace LoaderChain

abbrev Answer := Except LoadError (Option ClaimedModule)

section

variable {m : Type → Type} [Monad m]

/-- The first answer, or the next one where the first declines. After a fault nothing else is asked. -/
def otherwise (first next : m Answer) : m Answer := do
  match ← first with
  | .ok none => next
  | answer => return answer

/-- The chain of loaders registered one after the other. -/
def registered (loaders : List (Loader m)) : LoaderChain m := loaders.foldl push {}

omit [Monad m] in
theorem loaders_foldl_push (loaders : List (Loader m)) (chain : LoaderChain m) :
    (loaders.foldl push chain).loaders = chain.loaders ++ loaders := by
  induction loaders generalizing chain with
  | nil => exact (List.append_nil _).symm
  | cons l ls ih => rw [List.foldl_cons, ih, push, List.append_assoc, List.singleton_append]

omit [Monad m] in
theorem loaders_registered (loaders : List (Loader m)) : (registered loaders).loaders = loaders :=
  loaders_foldl_push loaders {}

theorem load_registered (files : FileAccess m) (id : String) (loaders : List (Loader m)) :
    (registered loaders).load files id = offer files id loaders := by
  rw [load, loaders_registered]

variable [LawfulMonad m] (files : FileAccess m) (id : String)

theorem otherwise_assoc (first next last : m Answer) :
    otherwise (otherwise first next) last = otherwise first (otherwise next last) := by
  rw [otherwise, otherwise, otherwise, bind_assoc]
  congr 1
  funext answer
  rcases answer with fault | _ | claimed <;> simp [otherwise]

/-- What one loader says of an identifier, under its own name. -/
def answerOf (l : Loader m) : m Answer := Except.map (Option.map (ClaimedModule.mk l.name)) <$> l.load? files id

theorem offer_cons (l : Loader m) (ls : List (Loader m)) :
    offer files id (l :: ls) = otherwise (answerOf files id l) (offer files id ls) := by
  rw [offer, otherwise, answerOf, bind_map_left]
  congr 1
  funext answer
  rcases answer with fault | _ | result <;> rfl

theorem offer_append (before after : List (Loader m)) :
    offer files id (before ++ after) = otherwise (offer files id before) (offer files id after) := by
  induction before with
  | nil => simp [offer, otherwise]
  | cons l ls ih => rw [List.cons_append, offer_cons, ih, offer_cons, otherwise_assoc]

end

/-! ## The loader that decides -/

section

variable {files : FileAccess Id} {id : String}

/-- A loader that leaves an identifier to the others. -/
def Declines (files : FileAccess Id) (id : String) (l : Loader Id) : Prop := l.load? files id = Except.ok none

/-- The first loader that does not decline. -/
def Decides (files : FileAccess Id) (id : String) (loaders : List (Loader Id)) (l : Loader Id) : Prop :=
  ∃ before after, loaders = before ++ l :: after ∧ (∀ b ∈ before, Declines files id b) ∧ ¬Declines files id l

theorem otherwise_declined {first : Answer} (h : first = .ok none) (next : Answer) :
    otherwise (m := Id) first next = next := by
  subst h
  rfl

theorem otherwise_kept {first : Answer} (h : first ≠ .ok none) (next : Answer) :
    otherwise (m := Id) first next = first := by
  rcases first with fault | _ | claimed
  · rfl
  · exact absurd rfl h
  · rfl

theorem map_eq_none_iff {α β : Type} (f : α → β) (answer : Except LoadError (Option α)) :
    Except.map (Option.map f) answer = .ok none ↔ answer = .ok none := by
  rcases answer with fault | _ | result <;> simp [Except.map]

theorem answerOf_eq_none_iff {l : Loader Id} : answerOf files id l = Except.ok none ↔ Declines files id l :=
  map_eq_none_iff _ _

theorem answerOf_eq_error_iff {l : Loader Id} {fault : LoadError} :
    answerOf files id l = Except.error fault ↔ l.load? files id = Except.error fault := by
  have hmap : ∀ answer : Except LoadError (Option LoadedModule),
      Except.map (Option.map (ClaimedModule.mk l.name)) answer = .error fault ↔ answer = .error fault := by
    rintro (e | _ | result) <;> simp [Except.map]
  exact hmap _

/-- A loader answers under its own name. -/
theorem answerOf_eq_some_iff {l : Loader Id} {claimed : ClaimedModule} :
    answerOf files id l = Except.ok (some claimed) ↔
      l.load? files id = Except.ok (some claimed.result) ∧ claimed.loader = l.name := by
  have hmap : ∀ answer : Except LoadError (Option LoadedModule),
      Except.map (Option.map (ClaimedModule.mk l.name)) answer = .ok (some claimed) ↔
        answer = .ok (some claimed.result) ∧ claimed.loader = l.name := by
    obtain ⟨loader, result⟩ := claimed
    rintro (e | _ | result') <;> simp [Except.map, and_comm, eq_comm]
  exact hmap _

theorem offer_of_declines {loaders : List (Loader Id)} (h : ∀ l ∈ loaders, Declines files id l) :
    offer files id loaders = Except.ok none := by
  induction loaders with
  | nil => rfl
  | cons l ls ih =>
    obtain ⟨hl, hls⟩ := List.forall_mem_cons.mp h
    rw [offer_cons, otherwise_declined (answerOf_eq_none_iff.mpr hl), ih hls]

theorem offer_of_decides {loaders : List (Loader Id)} {l : Loader Id} (h : Decides files id loaders l) :
    offer files id loaders = answerOf files id l := by
  obtain ⟨before, after, rfl, hbefore, hl⟩ := h
  rw [offer_append, otherwise_declined (offer_of_declines hbefore), offer_cons,
    otherwise_kept (mt answerOf_eq_none_iff.mp hl)]

theorem declines_or_decides (files : FileAccess Id) (id : String) (loaders : List (Loader Id)) :
    (∀ l ∈ loaders, Declines files id l) ∨ ∃ l, Decides files id loaders l := by
  induction loaders with
  | nil => exact .inl (List.forall_mem_nil _)
  | cons l ls ih =>
    by_cases hl : Declines files id l
    · rcases ih with hls | ⟨d, before, after, rfl, hbefore, hd⟩
      · exact .inl (List.forall_mem_cons.mpr ⟨hl, hls⟩)
      · exact .inr ⟨d, l :: before, after, rfl, List.forall_mem_cons.mpr ⟨hl, hbefore⟩, hd⟩
    · exact .inr ⟨l, [], ls, rfl, List.forall_mem_nil _, hl⟩

theorem offer_eq_none_iff {loaders : List (Loader Id)} :
    offer files id loaders = Except.ok none ↔ ∀ l ∈ loaders, Declines files id l := by
  refine ⟨fun hnone => ?_, offer_of_declines⟩
  rcases declines_or_decides files id loaders with hall | ⟨l, hdecides⟩
  · exact hall
  · rw [offer_of_decides hdecides, answerOf_eq_none_iff] at hnone
    obtain ⟨_, _, _, _, hl⟩ := hdecides
    exact absurd hnone hl

theorem offer_eq_iff {loaders : List (Loader Id)} {answer : Answer} (hanswer : answer ≠ .ok none) :
    offer files id loaders = answer ↔ ∃ l, Decides files id loaders l ∧ answerOf files id l = answer := by
  constructor
  · intro h
    rcases declines_or_decides files id loaders with hall | ⟨l, hdecides⟩
    · rw [offer_of_declines hall] at h
      exact absurd h.symm hanswer
    · exact ⟨l, hdecides, (offer_of_decides hdecides).symm.trans h⟩
  · rintro ⟨l, hdecides, rfl⟩
    exact offer_of_decides hdecides

end

/-- A chain is an ordered choice. Registering one list of loaders after another makes a chain that answers as
the first, and where that declines as the second; so the first loader that does not decline decides, with
its fault or with its module under its own name, a chain declines what all its loaders decline, and no loader
registered later changes an answer. -/
theorem chain_is_ordered_choice {m : Type → Type} [Monad m] [LawfulMonad m] :
    (∀ (before after : List (Loader m)) (files : FileAccess m) (id : String),
      (registered (before ++ after)).load files id =
        otherwise ((registered before).load files id) ((registered after).load files id)) ∧
    (∀ loaders : List (Loader m), (registered loaders).names = loaders.map Loader.name) ∧
    ∀ (loaders : List (Loader Id)) (files : FileAccess Id) (id : String),
      ((registered loaders).load files id = Except.ok none ↔ ∀ l ∈ loaders, Declines files id l) ∧
      (∀ fault, (registered loaders).load files id = Except.error fault ↔
        ∃ l, Decides files id loaders l ∧ l.load? files id = Except.error fault) ∧
      (∀ claimed, (registered loaders).load files id = Except.ok (some claimed) ↔
        ∃ l, Decides files id loaders l ∧ l.load? files id = Except.ok (some claimed.result) ∧
          claimed.loader = l.name) ∧
      ((registered loaders).load files id ≠ Except.ok none → ∀ more,
        (registered (loaders ++ more)).load files id = (registered loaders).load files id) := by
  refine ⟨?append, ?names, ?first⟩
  case append =>
    intro before after files id
    rw [load_registered, load_registered, load_registered, offer_append]
  case names =>
    intro loaders
    rw [names, loaders_registered]
  case first =>
    intro loaders files id
    rw [load_registered]
    refine ⟨offer_eq_none_iff, fun fault => ?_, fun claimed => ?_, fun hkept more => ?_⟩
    · have hkept : (.error fault : Answer) ≠ .ok none := nofun
      simp only [offer_eq_iff hkept, answerOf_eq_error_iff]
    · have hkept : (.ok (some claimed) : Answer) ≠ .ok none := nofun
      simp only [offer_eq_iff hkept, answerOf_eq_some_iff]
    · rw [load_registered, offer_append, otherwise_kept hkept]

/-- Claims every identifier with one and the same module. -/
def fallback : Loader Id where
  name := "fallback"
  load? _ _ := Except.ok (some { code := "export default undefined;" })

/-- A loader of YAML files before one that loads everything. The fault of a missing file stands, and what the
first declines the second loads. -/
theorem fault_before_fallback :
    let missing : FileAccess Id :=
      ⟨fun _ => Except.error .missing, fun _ => Except.error .missing, fun _ => Except.error .missing,
        fun _ => Except.error .missing, fun _ => Except.error .missing⟩
    (registered [YamlLoader.loader {}]).load missing "nav.yaml" ≠ Except.ok none ∧
      (registered [YamlLoader.loader {}, fallback]).load missing "nav.yaml" =
        Except.error (.unreadable "nav.yaml" .missing) ∧
      (registered [YamlLoader.loader {}, fallback]).load missing "main.ts" =
        Except.ok (some ⟨"fallback", { code := "export default undefined;" }⟩) ∧
      (registered [YamlLoader.loader {}, fallback]).names = ["yaml", "fallback"] := by
  intro missing
  obtain ⟨_, hnames, hfirst⟩ := chain_is_ordered_choice (m := Id)
  obtain ⟨_, hfault, _, hkept⟩ := hfirst [YamlLoader.loader {}] missing "nav.yaml"
  have hfails : (registered [YamlLoader.loader {}]).load missing "nav.yaml" =
      Except.error (.unreadable "nav.yaml" .missing) := by
    refine (hfault _).mpr ⟨_, ⟨[], [], rfl, List.forall_mem_nil _, ?_⟩, rfl⟩
    intro hdeclines
    cases hdeclines
  have hanswers : (registered [YamlLoader.loader {}]).load missing "nav.yaml" ≠ Except.ok none := by
    rw [hfails]
    exact nofun
  obtain ⟨_, _, hclaimed, _⟩ := hfirst [YamlLoader.loader {}, fallback] missing "main.ts"
  refine ⟨hanswers, (hkept hanswers [fallback]).trans hfails, (hclaimed _).mpr ?_, hnames _⟩
  refine ⟨fallback, ⟨[YamlLoader.loader {}], [], rfl, List.forall_mem_singleton.mpr rfl, ?_⟩, rfl, rfl⟩
  intro hdeclines
  cases hdeclines

end LoaderChain

end ConfigModules
