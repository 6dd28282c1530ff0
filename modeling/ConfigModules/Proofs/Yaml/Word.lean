import ConfigModules.Proofs.Script.NumberText
import ConfigModules.Proofs.Yaml.BlankText

/-! A source that is one plain word. It is scanned as one scalar between the start and the end of the stream,
and makes a document of this scalar, whatever its length: the key that a long word can no longer be is given up
before the word is delivered, that of a short one after. -/
namespace ConfigModules.Yaml

/-- A word of a source: it begins with a digit, or with a dash and a digit, and holds no blank, no break and no
colon. -/
structure IsWord (w : List Char) : Prop where
  allowed : ∀ c ∈ w, isAllowed c = true
  solid : ∀ c ∈ w, isBlankOrEnd c = false ∧ c ≠ ':'
  start : (∃ c cs, w = c :: cs ∧ c.isDigit = true) ∨ ∃ c cs, w = '-' :: c :: cs ∧ c.isDigit = true

/-! ## How a word begins -/

/-- What a digit is none of: blanks, and the marks that begin other tokens. -/
def marks : List Char :=
  [endChar, byteOrderMark, ' ', '\t', '%', '-', '.', '[', ']', '\x7b', '\x7d', ',', '?', ':', '*', '&', '!', '|',
   '>', '#', '@', '\x27', '\x22', '\x60']

theorem of_isDigit {c : Char} (h : c.isDigit = true) : isBlankOrEnd c = false ∧ c ∉ marks := by
  refine Script.forall_digit h ?_
  decide +kernel

theorem ne_of_isDigit {c x : Char} (h : c.isDigit = true) (hx : x ∈ marks) : c ≠ x := by
  rintro rfl
  exact (of_isDigit h).2 hx

namespace IsWord

variable {w : List Char} (h : IsWord w)
include h

theorem ne_nil : w ≠ [] := by
  rcases h.start with ⟨c, cs, rfl, _⟩ | ⟨c, cs, rfl, _⟩ <;> exact List.cons_ne_nil _ _

variable {k : Cursor} (hrest : k.rest = w)
include hrest

theorem not_comment : k.peek 0 ≠ '#' := by
  rw [Cursor.peek, hrest]
  rcases h.start with ⟨c, cs, rfl, hc⟩ | ⟨c, cs, rfl, _⟩
  · exact ne_of_isDigit hc (by decide)
  · exact (by decide : '-' ≠ '#')

/-- No document begins or ends at a word. -/
theorem atIndicator {x : Char} (hx : x = '-' ∨ x = '.') : k.atIndicator x = false := by
  rw [Cursor.atIndicator, Cursor.peek, Cursor.peek, hrest]
  rcases h.start with ⟨c, cs, rfl, hc⟩ | ⟨c, cs, rfl, hc⟩
  · have hne : c ≠ x := ne_of_isDigit hc (by rcases hx with rfl | rfl <;> decide)
    simp [hne]
  · rcases hx with rfl | rfl
    · simp [ne_of_isDigit hc (by decide : '-' ∈ marks)]
    · simp

end IsWord

namespace Scan

/-- The gap before a word is empty. -/
theorem gapFrom_word {w : List Char} (h : IsWord w) (m : Mark) :
    gapFrom false w m true false = (w, m, true) := by
  rcases h.start with ⟨c, cs, rfl, hc⟩ | ⟨c, cs, rfl, _⟩
  · obtain ⟨hblank, hmarks⟩ := of_isDigit hc
    simp only [marks, List.mem_cons, List.not_mem_nil, or_false, not_or] at hmarks
    have hbreak : isBreak c = false := by
      simp only [isBlankOrEnd, isBreakOrEnd, Bool.or_eq_false_iff] at hblank
      exact hblank.2.1
    rw [gapFrom]
    · simp [hbreak, hmarks]
    · rintro _ rfl _
      cases hbreak
  · rfl

/-- A word begins a plain scalar. -/
theorem readToken_word {s : Scan} {w : List Char} (h : IsWord w) (hrest : s.cursor.rest = w) :
    s.readToken = s.plain := by
  have hdash := h.atIndicator hrest (.inl rfl)
  have hpoint := h.atIndicator hrest (.inr rfl)
  have hpeek : ∀ n, s.cursor.peek n = w.getD n endChar := fun n => by rw [Cursor.peek, hrest]
  rcases h.start with ⟨c, cs, rfl, hc⟩ | ⟨c, cs, rfl, hc⟩
  · obtain ⟨hblank, hmarks⟩ := of_isDigit hc
    simp only [marks, List.mem_cons, List.not_mem_nil, or_false, not_or] at hmarks
    simp [readToken, hpeek, isEnd, hmarks, hdash, hpoint, startsPlain, hblank, isIndicator]
  · obtain ⟨hblank, hmarks⟩ := of_isDigit hc
    simp only [marks, List.mem_cons, List.not_mem_nil, or_false, not_or] at hmarks
    simp [readToken, hpeek, isEnd, endChar, hdash, hpoint, startsPlain, hblank, isBlank, hmarks]

end Scan

/-! ## Reading a word -/

namespace Plain

/-- Without blanks and colons a word is read to the end. -/
theorem readWord_of_solid {w : List Char} (h : ∀ c ∈ w, isBlankOrEnd c = false ∧ c ≠ ':') (m : Mark)
    (taken : List Char) : ∃ m', readWord false w m taken = (w.reverse ++ taken, [], m', .regular) := by
  induction w generalizing m taken with
  | nil => exact ⟨m, rfl⟩
  | cons c cs ih =>
    obtain ⟨⟨hblank, hcolon⟩, hcs⟩ := List.forall_mem_cons.mp h
    obtain ⟨m', hread⟩ := ih hcs (m.next c) (c :: taken)
    refine ⟨m', ?_⟩
    rw [readWord]
    simp [hblank, hcolon, hread]

/-- A plain scalar that is the rest of the source. -/
theorem read_word {w : List Char} (h : IsWord w) (indent : Int) (m : Mark) :
    ∃ m', read false indent ⟨w, m, none⟩ =
      .ok (⟨.scalar (String.ofList w) .plain, m, m'⟩, ⟨[], m', none⟩, false) := by
  obtain ⟨m', hread⟩ := readWord_of_solid h.solid m []
  rw [List.append_nil] at hread
  have hdash := h.atIndicator (k := ⟨w, m, none⟩) rfl (.inl rfl)
  have hpoint := h.atIndicator (k := ⟨w, m, none⟩) rfl (.inr rfl)
  have hcomment := h.not_comment (k := ⟨w, m, none⟩) rfl
  have hsome : w.reverse.isEmpty = false := by simpa using h.ne_nil
  have hwords : readWords false (indent + 1) m (w.length + 1) ⟨[], .empty, m, ⟨w, m, none⟩⟩ =
      .ok ⟨w.reverse, .empty, m', ⟨[], m', none⟩⟩ := by
    have hblank : isBlank endChar = false := rfl
    have hbreak : isBreak endChar = false := rfl
    have hend : Cursor.peek ⟨[], m', none⟩ 0 = endChar := rfl
    have hgap : Gap.empty.reversedText = [] := rfl
    rw [readWords]
    simp [Cursor.ensure, Cursor.atDocumentBoundary, hdash, hpoint, hcomment, hread, hsome, hend, hblank,
      hbreak, hgap]
    rfl
  refine ⟨m', ?_⟩
  rw [read, hwords]
  simp only [bind, Except.bind, List.reverse_reverse]
  rfl

end Plain

/-! ## The end of a source -/

namespace Scan

/-- A scan at the end of its source and outside all collections. -/
def ended (m : Mark) (queue : List Token) (delivered : Nat) (key : Option KeyStart) : Scan :=
  ⟨⟨[], m, none⟩, queue, delivered, false, key, [], -1, []⟩

@[simp] theorem queue_ended (m : Mark) (queue : List Token) (delivered : Nat) (key : Option KeyStart) :
    (ended m queue delivered key).queue = queue := rfl

/-- A key that is not required is dropped once it is stale. -/
theorem dropStaleKeys_ended (m : Mark) (queue : List Token) (delivered : Nat) {key : Option KeyStart}
    (hkey : ∀ k ∈ key, k.required = false) : ∃ key', (∀ k ∈ key', k.required = false) ∧
      (key' = none ∨ key' = key) ∧
      (ended m queue delivered key).dropStaleKeys = .ok (ended m queue delivered key') := by
  cases key with
  | none => exact ⟨none, hkey, .inl rfl, rfl⟩
  | some k =>
    have hrequired := hkey k rfl
    have hdrop : (ended m queue delivered (some k)).dropStaleKeys = (do
        let key ← (ended m queue delivered (some k)).dropIfStale (some k)
        return ended m queue delivered key) := rfl
    rw [hdrop, dropIfStale, if_neg (Bool.eq_false_iff.mp hrequired)]
    cases (ended m queue delivered (some k)).isStale k with
    | true => exact ⟨none, nofun, .inl rfl, rfl⟩
    | false => exact ⟨some k, hkey, .inr rfl, rfl⟩

theorem unroll_ended (m : Mark) (queue : List Token) (delivered : Nat) (key : Option KeyStart)
    (column : Int) : (ended m queue delivered key).unroll column = ended m queue delivered key := by
  simp [ended, unroll, unrollTo, inFlow]

theorem dropKey_ended (m : Mark) (queue : List Token) (delivered : Nat) {key : Option KeyStart}
    (hkey : ∀ k ∈ key, k.required = false) :
    (ended m queue delivered key).dropKey = .ok (ended m queue delivered none) := by
  cases key with
  | none => rfl
  | some k =>
    rw [dropKey, ended]
    simp [hkey k rfl, ended]

/-- The last step of a scan. -/
theorem step_ended (m : Mark) : ∃ m', ∀ (queue : List Token) (delivered : Nat) (key : Option KeyStart),
    (∀ k ∈ key, k.required = false) → (ended m queue delivered key).step =
      .ok (ended m' (queue ++ [⟨.streamEnd, m', m'⟩]) delivered none) := by
  refine ⟨if m.column = 0 then m else { m with line := m.line + 1, column := 0 },
    fun queue delivered key hkey => ?_⟩
  generalize hm' : (if m.column = 0 then m else { m with line := m.line + 1, column := 0 }) = m'
  obtain ⟨key', hkey', -, hdrop⟩ := dropStaleKeys_ended m queue delivered hkey
  have hskip : (ended m queue delivered key).skipGap = .ok (ended m queue delivered key) := rfl
  have hensure : ∀ n, (ended m queue delivered key).cursor.ensure n = .ok () := fun _ => rfl
  have hread : (ended m queue delivered key').readToken = (do
      let s ← ((ended m' queue delivered key').unroll (-1)).dropKey
      return { s with keyAllowed := false }.take .streamEnd 0) := by
    rw [← hm']
    rfl
  rw [step, hensure, hskip]
  simp only [bind, Except.bind, hdrop, unroll_ended]
  change readToken _ = _
  rw [hread, unroll_ended, dropKey_ended m' queue delivered hkey']
  rfl

/-- Tokens that no key awaits are all delivered. -/
theorem deliver_ended (m : Mark) (queue waiting : List Token) (delivered : Nat) (out : List Token) :
    deliver queue (ended m waiting delivered none) out =
      (queue.reverse ++ out, ended m [] (delivered + queue.length) none) := by
  induction queue generalizing waiting delivered out with
  | nil => rfl
  | cons t queue ih =>
    have hnext : deliver (t :: queue) (ended m waiting delivered none) out =
        deliver queue (ended m waiting (delivered + 1) none) (t :: out) := rfl
    rw [hnext, ih, List.length_cons, List.reverse_cons, List.append_assoc, List.singleton_append,
      Nat.add_assoc, Nat.add_comm 1]

/-- A scan ends once the end of the stream is delivered. -/
theorem run_ended (m : Mark) (queue : List Token) (delivered fuel : Nat) (out : List Token) :
    (ended m (queue ++ [⟨.streamEnd, m, m⟩]) delivered none).run (fuel + 1) out =
      (out.reverse ++ queue ++ [⟨.streamEnd, m, m⟩], none) := by
  have hfilled : (ended m (queue ++ [⟨.streamEnd, m, m⟩]) delivered none).queue.isEmpty = false := by
    simp
  have hdrop : (ended m (queue ++ [⟨.streamEnd, m, m⟩]) delivered none).dropStaleKeys =
      .ok (ended m (queue ++ [⟨.streamEnd, m, m⟩]) delivered none) := rfl
  rw [run, hfilled, hdrop]
  simp only [bind, Except.bind, pure, Except.pure, Bool.false_eq_true, if_false, deliver_ended, queue_ended,
    List.reverse_append, List.reverse_singleton, List.cons_append]
  simp

/-- One round of a scan in which tokens wait. -/
theorem run_of_step {s settled rest next : Scan} (out : List Token) {out' : List Token} {t : Token}
    (hqueue : s.queue.isEmpty = false) (hsettle : s.dropStaleKeys = .ok settled)
    (hdeliver : deliver settled.queue settled out = (t :: out', rest)) (ht : t.kind ≠ .streamEnd)
    (hstep : rest.step = .ok next) (fuel : Nat) : s.run (fuel + 1) out = next.run fuel (t :: out') := by
  obtain ⟨kind, first, last⟩ := t
  rw [run, hqueue, hsettle]
  simp only [bind, Except.bind, pure, Except.pure, Bool.false_eq_true, if_false, hdeliver, hstep]
  split
  · rename_i hend
    cases hend
    exact (ht rfl).elim
  · rfl

end Scan

/-! ## Scanning a word -/

namespace Scan

variable {w : List Char} (h : IsWord w)
include h

theorem ensure_word : (Cursor.ofChars w).ensure 0 = .ok () := by
  rw [cursor_of_allowed (List.all_eq_true.mpr h.allowed)]
  rfl

/-- The key that a word may be. -/
def wordKey : KeyStart := ⟨false, 1, Mark.start⟩

theorem step_started_of_word : ∃ m, (started w).step =
    .ok (ended m [⟨.scalar (String.ofList w) .plain, Mark.start, m⟩] 1 (some wordKey)) := by
  obtain ⟨m, hread⟩ := Plain.read_word h (-1) Mark.start
  have hstart : started w = ⟨⟨w, Mark.start, none⟩, [], 1, true, none, [], -1, []⟩ := by
    rw [started, initial, cursor_of_allowed (List.all_eq_true.mpr h.allowed)]
  have hgap := gapFrom_word h Mark.start
  have hskip : skipGap ⟨⟨w, Mark.start, none⟩, [], 1, true, none, [], -1, []⟩ =
      .ok ⟨⟨w, Mark.start, none⟩, [], 1, true, none, [], -1, []⟩ := by
    have hflow : inFlow ⟨⟨w, Mark.start, none⟩, [], 1, true, none, [], -1, []⟩ = false := rfl
    rw [skipGap, hflow]
    simp only [hgap]
    rfl
  have hensure : ∀ n, Cursor.ensure ⟨w, Mark.start, none⟩ n = .ok () := fun _ => rfl
  have hplain : plain ⟨⟨w, Mark.start, none⟩, [], 1, true, none, [], -1, []⟩ =
      .ok (ended m [⟨.scalar (String.ofList w) .plain, Mark.start, m⟩] 1 (some wordKey)) := by
    have hflow : inFlow ⟨⟨w, Mark.start, none⟩, [], 1, true, none, [], -1, []⟩ = false := rfl
    have hsave : saveKey ⟨⟨w, Mark.start, none⟩, [], 1, true, none, [], -1, []⟩ =
      .ok ⟨⟨w, Mark.start, none⟩, [], 1, true, some ⟨false, 1, Mark.start⟩, [], -1, []⟩ := rfl
    rw [plain, hsave]
    simp only [bind, Except.bind, inFlow, List.isEmpty_nil, Bool.not_true, hread]
    rfl
  refine ⟨m, ?_⟩
  rw [hstart, step, hensure, hskip]
  exact (readToken_word h rfl).trans hplain

theorem scan_of_word : ∃ m m', scan w =
    ([startToken, ⟨.scalar (String.ofList w) .plain, Mark.start, m⟩, ⟨.streamEnd, m', m'⟩], none) := by
  obtain ⟨m, hstep⟩ := step_started_of_word h
  obtain ⟨m', hlast⟩ := step_ended m
  have hkey : ∀ k ∈ some wordKey, k.required = false := by
    rintro _ ⟨⟩
    rfl
  obtain ⟨key, hrequired, hdropped, hsettle⟩ :=
    dropStaleKeys_ended m [⟨.scalar (String.ofList w) .plain, Mark.start, m⟩] 1 hkey
  refine ⟨m, m', ?_⟩
  rw [scan_started (ensure_word h), hstep]
  change run (w.length + 2) _ _ = _
  -- a word too long for a key is delivered before the end is read, any other after it
  rcases hdropped with rfl | rfl
  · have hround := run_of_step [startToken] rfl hsettle rfl nofun (hlast _ _ _ nofun)
    rw [hround, run_ended]
    rfl
  · have hround := run_of_step [startToken] rfl hsettle rfl nofun (hlast _ _ _ hkey)
    rw [hround]
    exact run_ended _ _ _ _ _

end Scan

/-! ## The document of a word -/

namespace Document

/-- The document of one plain scalar at the start of the source. -/
def ofPlain (text : String) : Document := ⟨[⟨.scalar none text .plain, Mark.start⟩], [], none⟩

theorem ofSource_word {w : List Char} (h : IsWord w) : ofSource w = [ofPlain (String.ofList w)] := by
  obtain ⟨m, m', hscan⟩ := Scan.scan_of_word h
  rw [ofSource, events, hscan]
  rfl

theorem tree_ofPlain (text : String) :
    (ofPlain text).tree = (Resolution.plain text).mapError fun e => .node [] Mark.start (.scalar e) := by
  have hscalar : Resolution.scalar none text .plain = Resolution.plain text := rfl
  cases hplain : Resolution.plain text with
  | error e =>
    simp [tree, ofPlain, readNode, nextTag?, localTag?, hscalar, hplain, Except.mapError]
  | ok t => simp [tree, ofPlain, readNode, nextTag?, localTag?, hscalar, hplain, Except.mapError]

end Document

end ConfigModules.Yaml
