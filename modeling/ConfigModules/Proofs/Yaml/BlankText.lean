import ConfigModules.Yaml.Document
import ConfigModules.Proofs.Yaml.Scan

/-! Texts in which there is nothing to parse. Such a text is told by its characters alone; the parser
finds no document in it, and in every other text it finds a document or a fault. -/
namespace ConfigModules.Yaml

/-- Whether a text holds only line breaks, spaces, comments and byte order marks at the start of lines.
Breaks and blanks are those of YAML: a tab is no blank where a key may begin. -/
def isBlankFrom : (lineStart inComment : Bool) → List Char → Bool
  | _, _, [] => true
  | lineStart, inComment, c :: cs =>
    if isBreak c then isBlankFrom true false cs
    else if inComment then isBlankFrom false true cs
    else if c = ' ' || (c = byteOrderMark && lineStart) then isBlankFrom false false cs
    else if c = '#' then isBlankFrom false true cs
    else false

/-- Whether a text is blank to the parser, which refuses some characters even in comments. -/
def isBlankText (source : List Char) : Bool := source.all isAllowed && isBlankFrom true false source

/-! ## The reader -/

theorem readBlocks_spec (cs before block : List Char) (first offset : Nat)
    (hbefore : ∀ c ∈ before, isAllowed c = true) (hblock : ∀ c ∈ block, isAllowed c = true) :
    (∀ c ∈ (Cursor.readBlocks cs before block first offset).1, isAllowed c = true) ∧
      ((Cursor.readBlocks cs before block first offset).2 = none → cs.all isAllowed = true) ∧
      (cs.all isAllowed = true → Cursor.readBlocks cs before block first offset =
        ((block ++ before).reverse ++ cs, none)) := by
  induction cs generalizing before block first offset with
  | nil =>
    refine ⟨?_, fun _ => rfl, fun _ => by simp [Cursor.readBlocks]⟩
    intro c hc
    rcases List.mem_append.mp (List.mem_reverse.mp hc) with hc | hc
    · exact hblock c hc
    · exact hbefore c hc
  | cons c cs ih =>
    rw [Cursor.readBlocks, List.all_cons]
    by_cases hc : isAllowed c = true
    · rw [if_pos hc, if_pos hc, hc, Bool.true_and]
      split_ifs
      · have hstep := ih before (c :: block) first (offset + c.utf8Size) hbefore
          (List.forall_mem_cons.mpr ⟨hc, hblock⟩)
        simpa using hstep
      · have hstep := ih (block ++ before) [c] offset (offset + c.utf8Size)
          (List.forall_mem_append.mpr ⟨hblock, hbefore⟩) (by simpa using hc)
        simpa using hstep
    · have hfalse : isAllowed c = false := by simpa using hc
      rw [if_neg hc, if_neg hc, hfalse, Bool.false_and]
      split_ifs
      · simpa using hbefore
      · simpa [or_imp, forall_and] using ⟨hbefore, hblock⟩

theorem cursor_of_allowed {source : List Char} (h : source.all isAllowed = true) :
    Cursor.ofChars source = ⟨source, Mark.start, none⟩ := by
  have hread := (readBlocks_spec source [] [] 0 0 (by simp) (by simp)).2.2 h
  simp [Cursor.ofChars, hread]

theorem allowed_of_mem {source : List Char} {c : Char} (h : c ∈ (Cursor.ofChars source).rest) :
    isAllowed c = true :=
  (readBlocks_spec source [] [] 0 0 (by simp) (by simp)).1 c h

theorem allowed_of_sound {source : List Char} (h : (Cursor.ofChars source).forbidden = none) :
    source.all isAllowed = true :=
  (readBlocks_spec source [] [] 0 0 (by simp) (by simp)).2.1 h

theorem forbidden_of_ensure {c : Cursor} (h : c.ensure 0 = .ok ()) (hrest : c.rest = []) :
    c.forbidden = none := by
  unfold Cursor.ensure at h
  split at h
  · assumption
  · simp [hrest] at h

/-! ## The gap before the first token -/

theorem column_next (m : Mark) (c : Char) : decide ((m.next c).column = 0) = false := by
  simp [Mark.next]

/-- The gap before the first token is the whole text exactly if the text is blank. Keys may begin
there, so no tab counts. -/
theorem gapFrom_nil_iff (cs : List Char) (m : Mark) {allowed : Bool} (ha : allowed = true)
    (inComment : Bool) :
    (Scan.gapFrom false cs m allowed inComment).1 = [] ↔
      isBlankFrom (m.column = 0) inComment cs = true := by
  fun_induction Scan.gapFrom false cs m allowed inComment with
  | case1 => simp [isBlankFrom]
  | case2 _ _ _ _ ih => exact ih (by simp)
  | case3 c cs m allowed inComment _ hbreak ih =>
    rw [isBlankFrom, if_pos hbreak]
    exact ih (by simp)
  | case4 c cs m allowed _ hbreak ih =>
    rw [column_next] at ih
    rw [isBlankFrom, if_neg hbreak, if_pos rfl]
    exact ih ha
  | case5 c cs m allowed inComment _ hbreak hcomment hblank ih =>
    rw [column_next] at ih
    have hspace : (c = ' ' || (c = byteOrderMark && decide (m.column = 0))) = true := by
      simpa [ha] using hblank
    rw [isBlankFrom, if_neg hbreak, if_neg hcomment, if_pos hspace]
    exact ih ha
  | case6 cs m allowed inComment hcomment _ hbreak _ ih =>
    rw [column_next] at ih
    rw [isBlankFrom, if_neg hbreak, if_neg hcomment]
    exact ih ha
  | case7 c cs m allowed inComment _ hbreak hcomment hblank hhash =>
    have hspace : ¬(c = ' ' || (c = byteOrderMark && decide (m.column = 0))) = true := by
      simpa [ha] using hblank
    rw [isBlankFrom, if_neg hbreak, if_neg hcomment, if_neg hspace, if_neg hhash]
    simp

theorem gapFrom_suffix (inFlow : Bool) (cs : List Char) (m : Mark) (allowed inComment : Bool) :
    (Scan.gapFrom inFlow cs m allowed inComment).1 <:+ cs := by
  fun_induction Scan.gapFrom inFlow cs m allowed inComment with
  | case1 => exact List.suffix_refl _
  | case2 _ _ _ _ ih => exact (ih.trans (List.suffix_cons _ _)).trans (List.suffix_cons _ _)
  | case3 _ _ _ _ _ _ _ ih => exact ih.trans (List.suffix_cons _ _)
  | case4 _ _ _ _ _ _ ih => exact ih.trans (List.suffix_cons _ _)
  | case5 _ _ _ _ _ _ _ _ _ ih => exact ih.trans (List.suffix_cons _ _)
  | case6 _ _ _ _ _ _ _ _ ih => exact ih.trans (List.suffix_cons _ _)
  | case7 => exact List.suffix_refl _

/-! ## The first step of scanning -/

namespace Scan

/-- The scan once the start of the stream is delivered. -/
def started (source : List Char) : Scan := { initial source with queue := [], delivered := 1 }

def startToken : Token := ⟨.streamStart, Mark.start, Mark.start⟩

theorem scan_started {source : List Char} (h : (Cursor.ofChars source).ensure 0 = .ok ()) :
    scan source = match (started source).step with
      | .error e => ([startToken], some e)
      | .ok s => s.run (source.length + 2) [startToken] := by
  have hensure : (initial source).cursor.ensure 0 = .ok () := h
  rw [scan]
  simp only [hensure]
  rfl

theorem cursor_dropStaleKeys (s : Scan) : Yields (fun s' => s'.cursor = s.cursor) s.dropStaleKeys :=
  yields_bind fun _ => yields_bind fun _ => yields_ok rfl

theorem cursor_unroll (s : Scan) (column : Int) : (s.unroll column).cursor = s.cursor := by
  unfold unroll
  split_ifs <;> rfl

theorem isEnd_of_allowed {c : Char} (h : isAllowed c = true) : isEnd c = false := by
  have hne : c ≠ endChar := by
    rintro rfl
    exact absurd h (by decide)
  simp [isEnd, hne]

/-- Where a text is not blank, the gap before the first token ends before a character, unless the
reader fails. -/
theorem skipGap_started {source : List Char} (h : isBlankText source = false) :
    Yields (fun s => s.queue = [] ∧ isEnd (s.cursor.peek 0) = false) (started source).skipGap := by
  intro s hs
  obtain ⟨_, hensure, hs⟩ := exists_of_bind_eq_ok hs
  cases hs
  refine ⟨rfl, ?_⟩
  cases hgap : (gapFrom false (Cursor.ofChars source).rest Mark.start true false).1 with
  | nil =>
    have hnone := forbidden_of_ensure hensure hgap
    have hallowed := allowed_of_sound hnone
    rw [cursor_of_allowed hallowed, gapFrom_nil_iff source Mark.start rfl false] at hgap
    have hblank : isBlankText source = true := by
      rw [isBlankText, hallowed, Bool.true_and]
      exact hgap
    exact absurd hblank (by simp [h])
  | cons c cs =>
    have hmem : c ∈ (Cursor.ofChars source).rest :=
      (gapFrom_suffix _ _ _ _ _).subset (hgap ▸ List.mem_cons_self)
    have hpeek : isEnd (((gapFrom false (Cursor.ofChars source).rest Mark.start true false).1).getD 0
        endChar) = false := by
      rw [hgap]
      exact isEnd_of_allowed (allowed_of_mem hmem)
    exact hpeek

theorem begun_started {source : List Char} (h : isBlankText source = false) :
    Yields (fun s => Begun s.queue) (started source).step := by
  refine yields_bind fun _ => (skipGap_started h).bind fun s₁ ⟨hqueue, hpeek⟩ => ?_
  intro s' hs'
  obtain ⟨s₂, hs₂, hrest⟩ := exists_of_bind_eq_ok hs'
  obtain ⟨closed, hclosed, hinner⟩ := queue_unroll s₂ s₂.mark.column
  have hheaded : Headed (s₂.unroll s₂.mark.column).queue := by
    rw [hclosed, queue_dropStaleKeys s₁ s₂ hs₂, hqueue]
    exact Headed.appendAll (fun _ ht => nomatch ht) hinner
  have hfirst : isEnd ((s₂.unroll s₂.mark.column).cursor.peek 0) = false := by
    rw [cursor_unroll, cursor_dropStaleKeys s₁ s₂ hs₂]
    exact hpeek
  have hread := begun_readToken hheaded fun hend => absurd hend (by simp [hfirst])
  exact yields_bind (fun _ => hread) s' hrest

/-- The scan of a blank text once it is at its end. -/
def atEnd (c : Cursor) : Scan := ⟨c, [⟨.streamEnd, c.mark, c.mark⟩], 1, false, none, [], -1, []⟩

theorem step_started_of_blank {source : List Char} (h : isBlankText source = true) :
    ∃ c, (started source).step = .ok (atEnd c) := by
  rw [isBlankText, Bool.and_eq_true] at h
  have hcursor := cursor_of_allowed h.1
  have hgap := (gapFrom_nil_iff source Mark.start rfl false).mpr h.2
  obtain ⟨r, hr⟩ : ∃ r, gapFrom false source Mark.start true false = r := ⟨_, rfl⟩
  obtain ⟨rest, m, allowed⟩ := r
  rw [hr] at hgap
  obtain rfl : rest = [] := hgap
  have hstart : started source = ⟨⟨source, Mark.start, none⟩, [], 1, true, none, [], -1, []⟩ := by
    rw [started, initial, hcursor]
  have hskip : skipGap ⟨⟨source, Mark.start, none⟩, [], 1, true, none, [], -1, []⟩ =
      .ok ⟨⟨[], m, none⟩, [], 1, allowed, none, [], -1, []⟩ := by
    have hflow : inFlow ⟨⟨source, Mark.start, none⟩, [], 1, true, none, [], -1, []⟩ = false := rfl
    rw [skipGap, hflow]
    simp only [hr]
    rfl
  refine ⟨⟨[], if m.column = 0 then m else ⟨m.index, m.line + 1, 0⟩, none⟩, ?_⟩
  have hensure : Cursor.ensure ⟨source, Mark.start, none⟩ 0 = .ok () := rfl
  rw [hstart, step, hensure, hskip]
  rfl

theorem run_atEnd (c : Cursor) (fuel : Nat) :
    (atEnd c).run (fuel + 1) [startToken] =
      ([startToken, ⟨.streamEnd, c.mark, c.mark⟩], none) := rfl

theorem scan_of_blank {source : List Char} (h : isBlankText source = true) :
    ∃ m, scan source = ([startToken, ⟨.streamEnd, m, m⟩], none) := by
  obtain ⟨c, hstep⟩ := step_started_of_blank h
  rw [isBlankText, Bool.and_eq_true] at h
  have hensure : (Cursor.ofChars source).ensure 0 = .ok () := by
    rw [cursor_of_allowed h.1]
    rfl
  refine ⟨c.mark, ?_⟩
  rw [scan_started hensure, hstep]
  exact run_atEnd c _

theorem headed_scan {source : List Char} (h : isBlankText source = false) :
    Headed (scan source).1.tail := by
  have hnone : Headed [] := fun _ ht => nomatch ht
  cases hensure : (Cursor.ofChars source).ensure 0 with
  | error e =>
    have hfail : scan source = ([], some e) := by
      have hinitial : (initial source).cursor.ensure 0 = .error e := hensure
      rw [scan]
      simp only [hinitial]
    rw [hfail]
    exact hnone
  | ok =>
    rw [scan_started hensure]
    cases hstep : (started source).step with
    | error e => exact hnone
    | ok s =>
      obtain ⟨t, ht, hinner⟩ := begun_started h s hstep
      obtain ⟨more, hqueue⟩ := List.head?_eq_some_iff.mp ht
      exact headed_run _ ⟨startToken, t, more, by rw [hqueue]; rfl, hinner, List.cons_ne_nil _ _⟩

end Scan

/-! ## Events -/

namespace Reading

/-- An event that belongs to a node. -/
def IsContent : EventKind → Prop
  | .aliasTo _ => True
  | .scalar _ _ _ => True
  | .sequenceStart _ => True
  | .mappingStart _ => True
  | _ => False

theorem content_readContent (r : Reading) (block indentless : Bool) (start : Mark) (p : Properties) :
    Yields (fun x => IsContent x.1.kind) (r.readContent block indentless start p) := by
  have hmissing : ∀ t, Yields (fun x => IsContent x.1.kind) (readContent.missing r block start p t) :=
    fun t => yields_ite (yields_ok trivial) (yields_error _)
  refine yields_bind fun t => ?_
  cases hkind : t.kind with
  | blockEntry => exact yields_ite (yields_ok trivial) (hmissing t)
  | blockSequenceStart => exact yields_ite (yields_ok trivial) (hmissing t)
  | blockMappingStart => exact yields_ite (yields_ok trivial) (hmissing t)
  | scalar text style => exact yields_ok trivial
  | flowSequenceStart => exact yields_ok trivial
  | flowMappingStart => exact yields_ok trivial
  | _ => exact hmissing t

theorem content_readNode (r : Reading) (block indentless : Bool) :
    Yields (fun x => IsContent x.1.kind) (r.readNode block indentless) := by
  refine yields_bind fun t => ?_
  split
  · exact yields_ok trivial
  · exact yields_bind fun _ => yields_bind fun _ => content_readContent _ _ _ _ _

theorem content_documentContent (r : Reading) :
    Yields (fun x => IsContent x.1.kind) r.documentContent := by
  refine yields_bind fun t => ?_
  split
  · exact yields_ok trivial
  · exact yields_ok trivial
  · exact yields_ok trivial
  · exact yields_ok trivial
  · exact yields_ok trivial
  · exact content_readNode _ _ _

/-- A document opens before a node. -/
def Opens (x : Event × Reading) : Prop :=
  x.1.kind = .documentStart ∧ (x.2.next = .blockNode ∨ x.2.next = .documentContent)

theorem inner_peek {r : Reading} (h : Headed r.tokens) : Yields Token.Inner r.peek := by
  unfold peek
  split
  · rename_i t ts htokens
    exact yields_ok (h t (by rw [htokens]; rfl))
  · exact yields_error _

theorem opens_explicitDocument (r : Reading) {t : Token} (ht : t.Inner) :
    Yields Opens (r.explicitDocument t) := by
  have hend : ¬t.kind = .streamEnd := ht
  rw [explicitDocument, if_neg hend]
  exact yields_bind fun _ => yields_bind fun _ => yields_guard fun _ => yields_ok ⟨rfl, .inr rfl⟩

theorem opens_firstDocument {r : Reading} (h : Headed r.tokens) : Yields Opens r.firstDocument := by
  refine (inner_peek h).bind fun t ht => ?_
  split
  · exact opens_explicitDocument r ht
  · exact opens_explicitDocument r ht
  · exact opens_explicitDocument r ht
  · exact opens_explicitDocument r ht
  · exact yields_ok ⟨rfl, .inl rfl⟩

theorem content_step {r : Reading} (h : r.next = .blockNode ∨ r.next = .documentContent) :
    Yields (fun x => IsContent x.1.kind) r.step := by
  rcases h with h | h
  · rw [step, h]
    exact content_readNode _ _ _
  · rw [step, h]
    exact content_documentContent _

theorem run_of_error {r : Reading} {e : Fault} (h : r.step = .error e) (fuel : Nat) (out : List Event) :
    run (fuel + 1) r out = (out.reverse, some e) := by
  rw [run, h]

theorem run_of_ok {r r' : Reading} {e : Event} (h : r.step = .ok (e, r')) (he : e.kind ≠ .streamEnd)
    (fuel : Nat) (out : List Event) : run (fuel + 1) r out = run fuel r' (e :: out) := by
  rw [run, h]
  exact if_neg he

theorem run_append (fuel : Nat) (r : Reading) (out : List Event) :
    ∃ es fault, run fuel r out = (out.reverse ++ es, fault) := by
  induction fuel generalizing r out with
  | zero => exact ⟨[], none, by rw [run, List.append_nil]⟩
  | succ fuel ih =>
    rw [run]
    split
    · exact ⟨[], _, by rw [List.append_nil]⟩
    · rename_i e r' _
      split_ifs
      · exact ⟨[e], none, by rw [List.reverse_cons]⟩
      · obtain ⟨es, fault, hrun⟩ := ih r' (e :: out)
        exact ⟨e :: es, fault, by rw [hrun, List.reverse_cons, List.append_assoc]; rfl⟩

end Reading

/-- Events that show a document or a fault: a fault without events, a document that opens and fails, or
a document with a node. -/
inductive Shows : List Event × Option Fault → Prop
  | fault (e : Fault) : Shows ([], some e)
  | opened (m : Mark) (e : Fault) : Shows ([⟨.documentStart, m⟩], some e)
  | node (m : Mark) (e : Event) (h : Reading.IsContent e.kind) (es : List Event) (f : Option Fault) :
      Shows (⟨.documentStart, m⟩ :: e :: es, f)

theorem shows_of_headed {tokens : List Token} (h : Headed tokens.tail) (fault : Option Fault)
    (fuel : Nat) :
    Shows (Reading.run (fuel + 2)
      { tokens, fault, next := .streamStart, after := [], opened := [], handles := [] } []) := by
  obtain ⟨r, hr⟩ : ∃ r : Reading, r =
      { tokens, fault, next := .streamStart, after := [], opened := [], handles := [] } := ⟨_, rfl⟩
  have hopens : Yields Reading.Opens r.step := by
    rw [hr]
    exact yields_bind fun _ => Reading.opens_firstDocument h
  rw [← hr]
  cases hstep : r.step with
  | error e =>
    rw [Reading.run_of_error hstep]
    exact .fault e
  | ok x =>
    obtain ⟨⟨kind, m⟩, r'⟩ := x
    obtain ⟨rfl, hnext⟩ := hopens _ hstep
    rw [Reading.run_of_ok hstep EventKind.noConfusion]
    cases hstep' : r'.step with
    | error e =>
      rw [Reading.run_of_error hstep']
      exact .opened m e
    | ok x =>
      obtain ⟨e, r''⟩ := x
      have hcontent : Reading.IsContent e.kind := Reading.content_step hnext _ hstep'
      have hkind : e.kind ≠ .streamEnd := by
        intro hend
        rw [hend] at hcontent
        exact hcontent
      rw [Reading.run_of_ok hstep' hkind]
      obtain ⟨es, f, hrun⟩ := Reading.run_append fuel r'' [e, ⟨.documentStart, m⟩]
      rw [hrun]
      exact .node m e hcontent es f

/-! ## Documents -/

namespace Document

/-- The documents of a text in which there is nothing to parse: one that holds nothing. -/
def Nothing (documents : List Document) : Prop := ∃ m, documents = [⟨[⟨.nothing, m⟩], [], none⟩]

def Solid (d : Document) : Prop := d.fault ≠ none ∨ ∃ i ∈ d.items.head?, i.kind ≠ .nothing

/-- Documents the first of which has a node or a fault. -/
def Finds (documents : List Document) : Prop := ∃ first ∈ documents.head?, first.Solid

def Draft.Solid (d : Draft) : Prop := ∃ i ∈ d.items.getLast?, i.kind ≠ .nothing

/-- The first document is solid, or will be. -/
def Promising (d : Draft) (out : List Document) : Prop :=
  (out = [] → d.Solid) ∧ ∀ first ∈ out.getLast?, first.Solid

theorem Draft.Solid.finish {d : Draft} (h : d.Solid) (fault : Option Fault) :
    (d.finish fault).Solid := by
  obtain ⟨i, hi, hkind⟩ := h
  exact .inr ⟨i, by rw [Draft.finish, List.head?_reverse]; exact hi, hkind⟩

theorem Draft.Solid.add {d : Draft} (h : d.Solid) (kind : ItemKind) (m : Mark) :
    (d.add kind m).Solid := by
  obtain ⟨i, hi, hkind⟩ := h
  refine ⟨i, ?_, hkind⟩
  rw [Draft.add, List.getLast?_cons, Option.mem_def.mp hi]
  rfl

theorem Draft.Solid.anchor {d : Draft} (h : d.Solid) (name : Option String) : (d.anchor name).Solid := by
  cases name with
  | none => exact h
  | some name => exact h

theorem Promising.add {d : Draft} {out : List Document} (h : Promising d out) (kind : ItemKind)
    (m : Mark) : Promising (d.add kind m) out :=
  ⟨fun hout => (h.1 hout).add kind m, h.2⟩

theorem Promising.anchor {d : Draft} {out : List Document} (h : Promising d out)
    (name : Option String) : Promising (d.anchor name) out :=
  ⟨fun hout => (h.1 hout).anchor name, h.2⟩

theorem Promising.finish {d : Draft} {out : List Document} (h : Promising d out)
    (fault : Option Fault) : ∀ first ∈ (d.finish fault :: out).getLast?, first.Solid := by
  intro first hfirst
  cases out with
  | nil =>
    obtain rfl : d.finish fault = first := Option.some.inj hfirst
    exact (h.1 rfl).finish fault
  | cons doc out => exact h.2 first hfirst

/-- Once the first document has a node, the documents do not hold nothing. -/
theorem solid_collect (es : List Event) (fault : Option Fault) {d : Draft} {out : List Document}
    (h : Promising d out) : Finds (collect es fault d out) := by
  have hend : ∀ {d : Draft} {out : List Document} (fault : Option Fault), Promising d out →
      Finds (d.finish fault :: out).reverse := by
    intro d out fault h
    obtain ⟨first, hfirst⟩ : ∃ first, (d.finish fault :: out).getLast? = some first :=
      Option.ne_none_iff_exists'.mp (by simp)
    exact ⟨first, by rw [List.head?_reverse]; exact hfirst, h.finish fault first hfirst⟩
  induction es generalizing d out with
  | nil => exact hend fault h
  | cons e es ih =>
    obtain ⟨kind, m⟩ := e
    cases kind with
    | documentStart => exact ih h
    | documentEnd => exact ih ⟨fun hout => (List.cons_ne_nil _ _ hout).elim, h.finish none⟩
    | streamEnd =>
      cases out with
      | nil => exact ⟨_, rfl, ((h.1 rfl).add _ _).finish none⟩
      | cons doc out =>
        obtain ⟨first, hfirst⟩ : ∃ first, (doc :: out).getLast? = some first :=
          Option.ne_none_iff_exists'.mp (by simp)
        have hall : collect (⟨.streamEnd, m⟩ :: es) fault d (doc :: out) = (doc :: out).reverse := rfl
        refine ⟨first, ?_, h.2 first hfirst⟩
        rw [hall, List.head?_reverse]
        exact hfirst
    | aliasTo name =>
      rw [collect]
      split
      · exact ih (h.add _ _)
      · exact hend _ h
    | scalar p text style => exact ih ((h.anchor _).add _ _)
    | sequenceStart p => exact ih ((h.anchor _).add _ _)
    | sequenceEnd => exact ih (h.add _ _)
    | mappingStart p => exact ih ((h.anchor _).add _ _)
    | mappingEnd => exact ih (h.add _ _)

theorem solid_add (d : Draft) {kind : ItemKind} (hkind : kind ≠ .nothing) (hitems : d.items = [])
    (m : Mark) : Promising (d.add kind m) [] := by
  refine ⟨fun _ => ⟨⟨kind, m⟩, ?_, hkind⟩, fun _ h => nomatch h⟩
  rw [Draft.add, hitems]
  rfl

theorem solid_of_shows {x : List Event × Option Fault} (h : Shows x) :
    Finds (collect x.1 x.2 .empty []) := by
  have hitems : ∀ name, (Draft.empty.anchor name).items = [] := fun name => by cases name <;> rfl
  cases h with
  | fault e => exact ⟨_, rfl, .inl (Option.some_ne_none e)⟩
  | opened m e => exact ⟨_, rfl, .inl (Option.some_ne_none e)⟩
  | node m e hcontent es f =>
    obtain ⟨kind, m'⟩ := e
    cases kind with
    | aliasTo name => exact ⟨_, rfl, .inl (Option.some_ne_none _)⟩
    | scalar p text style =>
      exact solid_collect es f (solid_add _ ItemKind.noConfusion (hitems _) m')
    | sequenceStart p => exact solid_collect es f (solid_add _ ItemKind.noConfusion (hitems _) m')
    | mappingStart p => exact solid_collect es f (solid_add _ ItemKind.noConfusion (hitems _) m')
    | documentStart => exact hcontent.elim
    | documentEnd => exact hcontent.elim
    | sequenceEnd => exact hcontent.elim
    | mappingEnd => exact hcontent.elim
    | streamEnd => exact hcontent.elim

theorem nothing_of_blank {source : List Char} (h : isBlankText source = true) :
    Nothing (ofSource source) := by
  obtain ⟨m, hscan⟩ := Scan.scan_of_blank h
  refine ⟨m, ?_⟩
  rw [ofSource, events, hscan]
  rfl

theorem finds_of_not_blank {source : List Char} (h : isBlankText source = false) :
    Finds (ofSource source) :=
  solid_of_shows (shows_of_headed (Scan.headed_scan h) (scan source).2
    (4 * (scan source).1.length + 6))

theorem not_finds_of_nothing {documents : List Document} (h : Nothing documents) :
    ¬ Finds documents := by
  rintro ⟨first, hfirst, hsolid⟩
  obtain ⟨m, rfl⟩ := h
  obtain rfl := Option.some.inj hfirst
  rcases hsolid with hfault | ⟨i, hi, hkind⟩
  · exact hfault rfl
  · obtain rfl := Option.some.inj hi
    exact hkind rfl

/-- The parser finds something exactly in the texts that are not blank. -/
theorem finds_iff (source : List Char) : Finds (ofSource source) ↔ isBlankText source = false := by
  constructor
  · intro hfinds
    cases hblank : isBlankText source with
    | false => rfl
    | true => exact absurd hfinds (not_finds_of_nothing (nothing_of_blank hblank))
  · exact finds_of_not_blank

end Document

end ConfigModules.Yaml
