import ConfigModules.Yaml.Token.Scan
import ConfigModules.Proofs.Yields

/-! What scanning does to the queue of tokens. Only the end of the source makes the token of the end, and
once another token is the first in the queue it stays before it. -/
namespace ConfigModules.Yaml

/-! ## The tokens of readers -/

/-- A token other than the one of the end. -/
def Token.Inner (t : Token) : Prop := t.kind ≠ .streamEnd

theorem inner_readName (isAlias : Bool) (c : Cursor) :
    Yields (fun r => r.1.Inner) (readName isAlias c) := by
  refine yields_bind fun _ => yields_bind fun _ => yields_guard fun _ => yields_ok ?_
  cases isAlias <;> exact TokenKind.noConfusion

theorem inner_tag (inFlow : Bool) (c : Cursor) :
    Yields (fun r => r.1.Inner) (Tag.read inFlow c) := by
  refine yields_bind fun _ => yields_bind fun _ => yields_guard fun _ => yields_ok ?_
  exact TokenKind.noConfusion

theorem inner_quoted (single : Bool) (c : Cursor) :
    Yields (fun r => r.1.Inner) (Quoted.read single c) :=
  yields_bind fun _ => yields_ok TokenKind.noConfusion

theorem inner_plain (inFlow : Bool) (indent : Int) (c : Cursor) :
    Yields (fun r => r.1.Inner) (Plain.read inFlow indent c) :=
  yields_bind fun _ => yields_ok TokenKind.noConfusion

theorem inner_block (folded : Bool) (indent : Int) (c : Cursor) :
    Yields (fun r => r.1.Inner) (Block.read folded indent c) := by
  refine yields_bind fun _ => yields_bind fun _ => yields_bind fun _ => yields_bind fun _ =>
    yields_bind fun _ => yields_guard fun _ => yields_guard fun _ => yields_bind fun _ =>
    yields_bind fun _ => yields_ok ?_
  exact TokenKind.noConfusion

theorem inner_directive (c : Cursor) : Yields (fun r => r.1.Inner) (Directive.read c) := by
  have hversion : ∀ start c, Yields (fun r : TokenKind × Cursor => r.1 ≠ .streamEnd)
      (Directive.readVersion start c) := by
    intro start c
    refine yields_bind fun _ => yields_bind fun _ => yields_guard fun _ => yields_bind fun _ =>
      yields_bind fun _ => yields_ok TokenKind.noConfusion
  have htag : ∀ start c, Yields (fun r : TokenKind × Cursor => r.1 ≠ .streamEnd)
      (Directive.readTag start c) := by
    intro start c
    refine yields_bind fun _ => yields_bind fun _ => yields_guard fun _ => yields_bind fun _ =>
      yields_bind fun _ => yields_guard fun _ => yields_ok TokenKind.noConfusion
  refine yields_bind fun _ => yields_bind fun _ => yields_guard fun _ => yields_guard fun _ => ?_
  refine yields_ite (Yields.bind (hversion _ _) ?_)
    (yields_ite (Yields.bind (htag _ _) ?_) (yields_error _))
  all_goals
    intro r hkind
    refine yields_bind fun _ => yields_bind fun _ => yields_bind fun _ => yields_guard fun _ =>
      yields_guard fun _ => yields_ok ?_
    exact hkind

/-! ## The queue -/

/-- The queue begins with no token of the end. -/
def Headed (q : List Token) : Prop := ∀ t ∈ q.head?, t.Inner

/-- The queue begins with a token other than the one of the end. -/
def Begun (q : List Token) : Prop := ∃ t ∈ q.head?, t.Inner

theorem Begun.headed {q : List Token} (h : Begun q) : Headed q := by
  obtain ⟨t, ht, hinner⟩ := h
  intro u hu
  rwa [Option.mem_unique hu ht]

theorem Begun.append {q : List Token} (h : Begun q) (l : List Token) : Begun (q ++ l) := by
  obtain ⟨t, ht, hinner⟩ := h
  cases q with
  | nil => cases ht
  | cons u q => exact ⟨t, ht, hinner⟩

theorem Headed.append {q : List Token} (h : Headed q) {t : Token} (ht : t.Inner) : Begun (q ++ [t]) := by
  cases q with
  | nil => exact ⟨t, rfl, ht⟩
  | cons u q => exact ⟨u, rfl, h u rfl⟩

theorem Headed.insert {q : List Token} (h : Headed q) {t : Token} (ht : t.Inner) (n : Nat) :
    Headed (q.insertIdx n t) := by
  cases n with
  | zero =>
    intro u hu
    obtain rfl : t = u := Option.some.inj hu
    exact ht
  | succ n =>
    cases q with
    | nil => exact h
    | cons u q => exact h

theorem Headed.appendAll {q l : List Token} (h : Headed q) (hl : ∀ t ∈ l, t.Inner) : Headed (q ++ l) := by
  cases q with
  | nil =>
    intro t ht
    exact hl t (List.mem_of_mem_head? ht)
  | cons u q => exact h

namespace Scan

theorem queue_dropKey (s : Scan) : Yields (fun s' => s'.queue = s.queue) s.dropKey := by
  unfold dropKey
  split
  · exact yields_ok rfl
  · exact yields_ite (yields_error _) (yields_ok rfl)

theorem queue_saveKey (s : Scan) : Yields (fun s' => s'.queue = s.queue) s.saveKey := by
  refine yields_ite (yields_ok rfl) ?_
  exact (queue_dropKey s).bind fun s' hs' => yields_ok hs'

theorem queue_dropStaleKeys (s : Scan) : Yields (fun s' => s'.queue = s.queue) s.dropStaleKeys :=
  yields_bind fun _ => yields_bind fun _ => yields_ok rfl

theorem queue_skipGap (s : Scan) : Yields (fun s' => s'.queue = s.queue) s.skipGap :=
  yields_bind fun _ => yields_ok rfl

theorem inner_unrollTo (column : Int) (m : Mark) (indents : List Int) (indent : Int)
    {closed : List Token} (h : ∀ t ∈ closed, t.Inner) :
    ∀ t ∈ (unrollTo column m indents indent closed).2.2, t.Inner := by
  induction indents generalizing indent closed with
  | nil => exact h
  | cons outer indents ih =>
    rw [unrollTo]
    split_ifs
    · refine ih outer (List.forall_mem_cons.mpr ⟨?_, h⟩)
      exact TokenKind.noConfusion
    · exact h

theorem queue_unroll (s : Scan) (column : Int) :
    ∃ closed, (s.unroll column).queue = s.queue ++ closed ∧ ∀ t ∈ closed, t.Inner := by
  unfold unroll
  split_ifs
  · exact ⟨[], (List.append_nil _).symm, List.forall_mem_nil _⟩
  · exact ⟨_, rfl, inner_unrollTo _ _ _ _ (List.forall_mem_nil _)⟩

theorem headed_unroll {s : Scan} (h : Headed s.queue) (column : Int) :
    Headed (s.unroll column).queue := by
  obtain ⟨closed, hqueue, hclosed⟩ := queue_unroll s column
  rw [hqueue]
  exact h.appendAll hclosed

section Tokens

variable {s : Scan} (h : Headed s.queue)
include h

theorem begun_take {kind : TokenKind} (hkind : kind ≠ .streamEnd) (n : Nat) :
    Begun (s.take kind n).queue :=
  h.append (t := ⟨kind, _, _⟩) hkind

theorem headed_dropKey : Yields (fun s' => Headed s'.queue) s.dropKey := by
  intro s' hs'
  rw [queue_dropKey s s' hs']
  exact h

theorem headed_saveKey : Yields (fun s' => Headed s'.queue) s.saveKey := by
  intro s' hs'
  rw [queue_saveKey s s' hs']
  exact h

theorem headed_roll (column : Nat) {place : Scan → Scan}
    (hplace : ∀ s, Headed s.queue → Headed (place s).queue) :
    Headed (s.roll column place).queue := by
  unfold roll
  split_ifs
  · exact hplace _ h
  · exact h

theorem headed_blockStart {kind : TokenKind} (hkind : kind ≠ .streamEnd) (problem : Problem) :
    Yields (fun s' => Headed s'.queue) (s.blockStart kind problem) := by
  refine yields_ite (yields_ok h) (yields_ite (yields_ok ?_) (yields_error _))
  exact headed_roll h _ fun _ hs => (hs.append (t := ⟨kind, _, _⟩) hkind).headed

theorem begun_directive : Yields (fun s' => Begun s'.queue) s.directive :=
  (headed_dropKey (headed_unroll h (-1))).bind fun _ hs =>
    (inner_directive _).bind fun _ ht => yields_ok (hs.append ht)

theorem begun_documentIndicator {kind : TokenKind} (hkind : kind ≠ .streamEnd) :
    Yields (fun s' => Begun s'.queue) (s.documentIndicator kind) :=
  (headed_dropKey (headed_unroll h (-1))).bind fun _ hs => yields_ok (begun_take hs hkind _)

theorem begun_flowStart {kind : TokenKind} (hkind : kind ≠ .streamEnd) :
    Yields (fun s' => Begun s'.queue) (s.flowStart kind) :=
  (headed_saveKey h).bind fun _ hs => yields_ok (begun_take hs hkind _)

theorem begun_flowEnd {kind : TokenKind} (hkind : kind ≠ .streamEnd) :
    Yields (fun s' => Begun s'.queue) (s.flowEnd kind) := by
  refine (headed_dropKey h).bind fun s' hs => ?_
  cases houter : s'.outerKeys with
  | nil => exact yields_ok (begun_take hs hkind _)
  | cons key outerKeys => exact yields_ok (begun_take hs hkind _)

theorem begun_flowEntry : Yields (fun s' => Begun s'.queue) s.flowEntry :=
  (headed_dropKey h).bind fun _ hs => yields_ok (begun_take hs TokenKind.noConfusion _)

theorem begun_blockEntry : Yields (fun s' => Begun s'.queue) s.blockEntry :=
  (headed_blockStart h TokenKind.noConfusion _).bind fun _ hs =>
    (headed_dropKey hs).bind fun _ hs => yields_ok (begun_take hs TokenKind.noConfusion _)

theorem begun_keyIndicator : Yields (fun s' => Begun s'.queue) s.keyIndicator :=
  (headed_blockStart h TokenKind.noConfusion _).bind fun _ hs =>
    (headed_dropKey hs).bind fun _ hs => yields_ok (begun_take hs TokenKind.noConfusion _)

/-- A key found late is put before the tokens that it begins with. -/
theorem begun_valueIndicator : Yields (fun s' => Begun s'.queue) s.valueIndicator := by
  unfold valueIndicator
  split
  · rename_i k _
    refine yields_ok (begun_take ?_ TokenKind.noConfusion _)
    refine headed_roll ?_ _ fun _ hs => hs.insert TokenKind.noConfusion _
    exact h.insert TokenKind.noConfusion _
  · exact (headed_blockStart h TokenKind.noConfusion _).bind fun _ hs =>
      yields_ok (begun_take hs TokenKind.noConfusion _)

theorem begun_keyPart {read : Cursor → Except Fault (Token × Cursor)}
    (hread : ∀ c, Yields (fun r => r.1.Inner) (read c)) :
    Yields (fun s' => Begun s'.queue) (s.keyPart read) :=
  (headed_saveKey h).bind fun _ hs => (hread _).bind fun _ ht => yields_ok (hs.append ht)

theorem begun_plain : Yields (fun s' => Begun s'.queue) s.plain :=
  (headed_saveKey h).bind fun _ hs => (inner_plain _ _ _).bind fun _ ht => yields_ok (hs.append ht)

theorem begun_blockScalar (folded : Bool) : Yields (fun s' => Begun s'.queue) (s.blockScalar folded) :=
  (headed_dropKey h).bind fun _ hs => (inner_block _ _ _).bind fun _ ht => yields_ok (hs.append ht)

omit h in
theorem begun_streamEnd (h : Begun s.queue) : Yields (fun s' => Begun s'.queue) s.streamEnd := by
  obtain ⟨closed, hqueue, _⟩ := queue_unroll
    { s with cursor.mark := if s.mark.column = 0 then s.mark else
      { s.mark with line := s.mark.line + 1, column := 0 } } (-1)
  refine (queue_dropKey _).bind fun s' hs' => yields_ok ?_
  have hbegun : Begun s'.queue := by
    rw [hs', hqueue]
    exact h.append closed
  exact hbegun.append _

/-- A token that is read begins the queue or stands behind its beginning. The end of the source can
only do the second. -/
theorem begun_readToken (hend : isEnd (s.cursor.peek 0) = true → Begun s.queue) :
    Yields (fun s' => Begun s'.queue) s.readToken := by
  unfold readToken
  by_cases hc : isEnd (s.cursor.peek 0) = true
  · rw [if_pos hc]
    exact begun_streamEnd (hend hc)
  · rw [if_neg hc]
    refine yields_ite (begun_directive h) ?_
    refine yields_ite (begun_documentIndicator h TokenKind.noConfusion) ?_
    refine yields_ite (begun_documentIndicator h TokenKind.noConfusion) ?_
    refine yields_ite (begun_flowStart h TokenKind.noConfusion) ?_
    refine yields_ite (begun_flowStart h TokenKind.noConfusion) ?_
    refine yields_ite (begun_flowEnd h TokenKind.noConfusion) ?_
    refine yields_ite (begun_flowEnd h TokenKind.noConfusion) ?_
    refine yields_ite (begun_flowEntry h) ?_
    refine yields_ite (begun_blockEntry h) ?_
    refine yields_ite (begun_keyIndicator h) ?_
    refine yields_ite (begun_valueIndicator h) ?_
    refine yields_ite (begun_keyPart h (inner_readName true)) ?_
    refine yields_ite (begun_keyPart h (inner_readName false)) ?_
    refine yields_ite (begun_keyPart h (inner_tag _)) ?_
    refine yields_ite (begun_blockScalar h false) ?_
    refine yields_ite (begun_blockScalar h true) ?_
    refine yields_ite (begun_keyPart h (inner_quoted true)) ?_
    refine yields_ite (begun_keyPart h (inner_quoted false)) ?_
    exact yields_ite (begun_plain h) (yields_error _)

omit h in
theorem begun_step (h : Begun s.queue) : Yields (fun s' => Begun s'.queue) s.step := by
  refine yields_bind fun _ => (queue_skipGap s).bind fun s₁ h₁ => ?_
  refine (queue_dropStaleKeys s₁).bind fun s₂ h₂ => ?_
  obtain ⟨closed, hqueue, _⟩ := queue_unroll s₂ s₂.mark.column
  have hbegun : Begun (s₂.unroll s₂.mark.column).queue := by
    rw [hqueue, h₂, h₁]
    exact h.append closed
  exact yields_bind fun _ => begun_readToken hbegun.headed fun _ => hbegun

end Tokens

/-! ## The run -/

/-- Delivery only moves tokens. -/
theorem deliver_append (q : List Token) (s : Scan) (out : List Token) :
    (deliver q s out).1.reverse ++ (deliver q s out).2.queue = out.reverse ++ q ∧
      out.length ≤ (deliver q s out).1.length := by
  induction q generalizing s out with
  | nil => exact ⟨rfl, Nat.le_refl _⟩
  | cons t q ih =>
    rw [deliver]
    split_ifs
    · exact ⟨rfl, Nat.le_refl _⟩
    · obtain ⟨htokens, hlength⟩ := ih { s with delivered := s.delivered + 1 } (t :: out)
      refine ⟨?_, Nat.le_of_succ_le hlength⟩
      rw [htokens, List.reverse_cons, List.append_assoc]
      rfl

/-- The second of all tokens, delivered or waiting, is there and not the one of the end. The first
is delivered. -/
def Settled (out q : List Token) : Prop :=
  ∃ first second more, out.reverse ++ q = first :: second :: more ∧ second.Inner ∧ out ≠ []

theorem Settled.delivered {out q : List Token} (h : Settled out q) : Headed out.reverse.tail := by
  obtain ⟨first, second, more, htokens, hinner, _⟩ := h
  cases hout : out.reverse with
  | nil => exact fun _ ht => nomatch ht
  | cons a l =>
    cases l with
    | nil => exact fun _ ht => nomatch ht
    | cons b l =>
      rw [hout] at htokens
      obtain ⟨rfl, hmore⟩ := List.cons.inj htokens
      obtain ⟨rfl, _⟩ := List.cons.inj hmore
      intro t ht
      obtain rfl : b = t := Option.some.inj ht
      exact hinner

theorem Settled.deliver {s : Scan} {out : List Token} (h : Settled out s.queue) :
    Settled (Scan.deliver s.queue s out).1 (Scan.deliver s.queue s out).2.queue := by
  obtain ⟨first, second, more, htokens, hinner, hout⟩ := h
  obtain ⟨hsame, hlength⟩ := deliver_append s.queue s out
  refine ⟨first, second, more, hsame.trans htokens, hinner, ?_⟩
  exact List.length_pos_iff.mp (Nat.lt_of_lt_of_le (List.length_pos_iff.mpr hout) hlength)

theorem Settled.step {s : Scan} {out : List Token} (h : Settled out s.queue) :
    Yields (fun s' => Settled out s'.queue) s.step := by
  obtain ⟨first, second, more, htokens, hinner, hout⟩ := h
  intro s' hs'
  cases hreverse : out.reverse with
  | nil => exact absurd (List.reverse_eq_nil_iff.mp hreverse) hout
  | cons a l =>
    rw [hreverse] at htokens
    obtain ⟨rfl, hmore⟩ := List.cons.inj htokens
    cases l with
    | nil =>
      have hqueue : s.queue = second :: more := hmore
      have hbegun : Begun s.queue := ⟨second, by rw [hqueue]; rfl, hinner⟩
      obtain ⟨t, ht, hinner'⟩ := begun_step hbegun s' hs'
      obtain ⟨more', hqueue'⟩ := List.head?_eq_some_iff.mp ht
      exact ⟨a, t, more', by rw [hreverse, hqueue']; rfl, hinner', hout⟩
    | cons b l =>
      obtain ⟨rfl, _⟩ := List.cons.inj hmore
      exact ⟨a, b, l ++ s'.queue, by rw [hreverse]; rfl, hinner, hout⟩

/-- The second of the tokens that a run gives is not the one of the end. -/
theorem headed_run (fuel : Nat) {s : Scan} {out : List Token} (h : Settled out s.queue) :
    Headed (s.run fuel out).1.tail := by
  induction fuel generalizing s out with
  | zero => exact h.delivered
  | succ fuel ih =>
    have hdeliver : ∀ s' : Scan, Settled out s'.queue →
        Yields (fun r => Settled r.1 r.2.queue) (pure (deliver s'.queue s' out) : Except Fault _) :=
      fun s' hs' => yields_ok hs'.deliver
    have hfresh : Yields (fun s' => Settled out s'.queue) s.dropStaleKeys := by
      intro s' hs'
      rw [queue_dropStaleKeys s s' hs']
      exact h
    have hsettled : Yields (fun r => Settled r.1 r.2.queue) (do
        let s ← if s.queue.isEmpty then pure s else s.dropStaleKeys
        return deliver s.queue s out) :=
      yields_ite (Yields.bind (P := fun s' => Settled out s'.queue) (yields_ok h) hdeliver)
        (hfresh.bind hdeliver)
    rw [run]
    split
    · exact h.delivered
    · rename_i out' s' heq
      have hout := hsettled _ heq
      split
      · exact hout.delivered
      · split
        · exact hout.delivered
        · rename_i hstep
          exact ih (hout.step _ hstep)

end Scan

end ConfigModules.Yaml
