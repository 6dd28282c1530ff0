import Mathlib.Data.List.Forall2
import Mathlib.Data.List.Perm.Subperm

/-! Lists whose elements are related one by one. -/
namespace ConfigModules

variable {α β γ : Type} {R : α → β → Prop} {as : List α} {bs : List β}

theorem exists_mem_right (h : List.Forall₂ R as bs) {a : α} (ha : a ∈ as) : ∃ b ∈ bs, R a b := by
  induction h with
  | nil => cases ha
  | cons hab _ ih =>
    cases ha with
    | head => exact ⟨_, List.mem_cons_self, hab⟩
    | tail _ ha =>
      obtain ⟨b, hb, hab⟩ := ih ha
      exact ⟨b, List.mem_cons_of_mem _ hb, hab⟩

theorem exists_mem_left (h : List.Forall₂ R as bs) {b : β} (hb : b ∈ bs) : ∃ a ∈ as, R a b :=
  exists_mem_right (R := fun b a => R a b) h.flip hb

theorem exists_getElem? (h : List.Forall₂ R as bs) {i : Nat} {b : β} (hb : bs[i]? = some b) :
    ∃ a, as[i]? = some a ∧ R a b := by
  induction h generalizing i with
  | nil => simp at hb
  | cons hab _ ih =>
    cases i with
    | zero => exact ⟨_, rfl, Option.some.inj hb ▸ hab⟩
    | succ i => exact ih hb

theorem exists_forall₂ (h : ∀ a ∈ as, ∃ b, R a b) : ∃ bs, List.Forall₂ R as bs := by
  induction as with
  | nil => exact ⟨[], .nil⟩
  | cons a as ih =>
    obtain ⟨⟨b, hab⟩, has⟩ := List.forall_mem_cons.mp h
    obtain ⟨bs, hbs⟩ := ih has
    exact ⟨b :: bs, .cons hab hbs⟩

/-- Either all elements give something, or there is a first one that fails. -/
theorem forall₂_ok_or_first_error {ε : Type} (f : α → Except ε β) (as : List α) :
    (∃ bs, List.Forall₂ (fun a b => f a = .ok b) as bs) ∨
      ∃ before a after e, as = before ++ a :: after ∧
        (∃ bs, List.Forall₂ (fun a b => f a = .ok b) before bs) ∧ f a = .error e := by
  induction as with
  | nil => exact .inl ⟨[], .nil⟩
  | cons a as ih =>
    cases ha : f a with
    | error e => exact .inr ⟨[], a, as, e, rfl, ⟨[], .nil⟩, ha⟩
    | ok b =>
      rcases ih with ⟨bs, hbs⟩ | ⟨before, x, after, e, rfl, ⟨bs, hbs⟩, hx⟩
      · exact .inl ⟨b :: bs, .cons ha hbs⟩
      · exact .inr ⟨a :: before, x, after, e, rfl, ⟨b :: bs, .cons ha hbs⟩, hx⟩

theorem forall₂_imp {S : α → β → Prop} (hRS : ∀ a ∈ as, ∀ b ∈ bs, R a b → S a b)
    (h : List.Forall₂ R as bs) : List.Forall₂ S as bs := by
  induction h with
  | nil => exact .nil
  | cons hab _ ih =>
    refine .cons (hRS _ List.mem_cons_self _ List.mem_cons_self hab) (ih ?_)
    intro a ha b hb
    exact hRS a (List.mem_cons_of_mem _ ha) b (List.mem_cons_of_mem _ hb)

theorem forall₂_trans {S : β → γ → Prop} {T : α → γ → Prop} {cs : List γ}
    (htrans : ∀ a ∈ as, ∀ b c, R a b → S b c → T a c) (hab : List.Forall₂ R as bs)
    (hbc : List.Forall₂ S bs cs) : List.Forall₂ T as cs := by
  induction hab generalizing cs with
  | nil =>
    cases hbc
    exact .nil
  | cons h _ ih =>
    cases hbc with
    | cons h' hbc =>
      obtain ⟨hhead, htail⟩ := List.forall_mem_cons.mp htrans
      exact .cons (hhead _ _ h h') (ih htail hbc)

/-- Where there are as many relatives as things and no two things share one, no relative is left over. -/
theorem exists_related (hlen : as.length = bs.length) (hR : ∀ a ∈ as, ∃ b ∈ bs, R a b)
    (halone : as.Pairwise fun a a' => ∀ b ∈ bs, R a b → ¬R a' b) : ∀ b ∈ bs, ∃ a ∈ as, R a b := by
  obtain ⟨cs, hcs, hsub, hnodup⟩ : ∃ cs, List.Forall₂ R as cs ∧ cs ⊆ bs ∧ cs.Nodup := by
    clear hlen
    induction as with
    | nil => exact ⟨[], .nil, List.nil_subset bs, List.nodup_nil⟩
    | cons a as ih =>
      obtain ⟨⟨b, hb, hab⟩, hR⟩ := List.forall_mem_cons.mp hR
      obtain ⟨ha, halone⟩ := List.pairwise_cons.mp halone
      obtain ⟨cs, hcs, hsub, hnodup⟩ := ih hR halone
      have hnew : b ∉ cs := by
        intro hbcs
        obtain ⟨a', ha', hab'⟩ := exists_mem_left hcs hbcs
        exact ha a' ha' b hb hab hab'
      exact ⟨b :: cs, .cons hab hcs, List.cons_subset.mpr ⟨hb, hsub⟩, List.nodup_cons.mpr ⟨hnew, hnodup⟩⟩
  have hperm : cs.Perm bs :=
    (hnodup.subperm hsub).perm_of_length_le (Nat.le_of_eq (hlen ▸ hcs.length_eq))
  intro b hb
  exact exists_mem_left hcs (hperm.mem_iff.mpr hb)

end ConfigModules
