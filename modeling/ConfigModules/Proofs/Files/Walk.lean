import ConfigModules.Files.Walk
import ConfigModules.Proofs.Files.Path
import Mathlib.Data.List.Nodup

/-! What a walk reports and in which order: the items of a directory one entry after the other, by the
bytes of the names, each path at most once. -/
namespace ConfigModules

def DirectoryEntry.Before (a b : DirectoryEntry) : Prop := nameBytes a.name < nameBytes b.name

instance (a b : DirectoryEntry) : Decidable (a.Before b) :=
  inferInstanceAs (Decidable (nameBytes a.name < nameBytes b.name))

/-- The path that an item tells: a fault may tell none. -/
def WalkItem.path? : WalkItem → Option String
  | .file path => some path
  | .fault f => f.path?

namespace FileAccess

variable (files : FileAccess Id)

/-- What file systems keep to: a directory lists no name twice, and only names that entries can have; a
path that is too long is not listed, and the empty path names nothing. -/
structure Orderly : Prop where
  distinct : ∀ {path listing}, files.list path = Except.ok listing →
    (listing.entries.map DirectoryEntry.name).Nodup
  named : ∀ {path listing}, files.list path = Except.ok listing →
    ∀ entry ∈ listing.entries, IsEntryName entry.name
  bounded : ∀ {path listing}, files.list path = Except.ok listing → path.utf8ByteSize < pathLimit
  empty : ∀ kind?, files.entry "" ≠ Except.ok kind?

/-- The directory is at another place. -/
def Elsewhere (place directory : String) : Prop :=
  ∃ other, files.place directory = Except.ok other ∧ other ≠ place

mutual

/-- The items of a directory that stands in others, the innermost first. -/
inductive WalksDirectory : (outer : List String) → (directory : String) → List WalkItem → Prop
  | unreadable {outer directory fault} : files.list directory = Except.error fault →
      WalksDirectory outer directory [.fault (.unusable (some directory) fault)]
  | listed {outer directory entries sorted items} : files.list directory = Except.ok ⟨entries, none⟩ →
      sorted.Perm entries → sorted.Pairwise DirectoryEntry.Before →
      WalksEntries (directory :: outer) directory sorted items → WalksDirectory outer directory items
  | cutShort {outer directory entries sorted items fault} :
      files.list directory = Except.ok ⟨entries, some fault⟩ →
      sorted.Perm entries → sorted.Pairwise DirectoryEntry.Before →
      WalksEntries (directory :: outer) directory sorted items →
      WalksDirectory outer directory (.fault (.unusable none fault) :: items)

inductive WalksEntries : (directories : List String) → (directory : String) → List DirectoryEntry →
    List WalkItem → Prop
  | nil {directories directory} : WalksEntries directories directory [] []
  | cons {directories directory entry more here there} :
      WalksEntry directories (childPath directory entry.name) entry.kind here →
      WalksEntries directories directory more there →
      WalksEntries directories directory (entry :: more) (here ++ there)

/-- The items of an entry, given its path and what its directory says of it. A link is walked as what it
leads to. If that is a directory, it is opened, and so are those that the link stands in, from the innermost
on, until one is the same or cannot be opened. -/
inductive WalksEntry : (directories : List String) → (path : String) → Option FileKind →
    List WalkItem → Prop
  | file {directories path} : WalksEntry directories path (some .file) [.file path]
  | directory {directories path items} : WalksDirectory directories path items →
      WalksEntry directories path (some .directory) items
  | other {directories path} : WalksEntry directories path (some .other) []
  | dangling {directories path fault} : files.kind path = Except.error fault →
      WalksEntry directories path none [.fault (.unusable (some path) fault)]
  | linkToFile {directories path} : files.kind path = Except.ok .file →
      WalksEntry directories path none [.file path]
  | linkToOther {directories path} : files.kind path = Except.ok .other →
      WalksEntry directories path none []
  | linkToClosed {directories path fault} : files.kind path = Except.ok .directory →
      files.place path = Except.error fault →
      WalksEntry directories path none [.fault (.unusable none fault)]
  | linkInClosed {path place inner closed outer fault} : files.kind path = Except.ok .directory →
      files.place path = Except.ok place → (∀ directory ∈ inner, files.Elsewhere place directory) →
      files.place closed = Except.error fault →
      WalksEntry (inner ++ closed :: outer) path none [.fault (.unusable none fault)]
  | linkBack {path place inner ancestor outer} : files.kind path = Except.ok .directory →
      files.place path = Except.ok place → (∀ directory ∈ inner, files.Elsewhere place directory) →
      files.place ancestor = Except.ok place →
      WalksEntry (inner ++ ancestor :: outer) path none [.fault (.loop ancestor path)]
  | linkToDirectory {directories path place items} : files.kind path = Except.ok .directory →
      files.place path = Except.ok place → (∀ directory ∈ directories, files.Elsewhere place directory) →
      WalksDirectory directories path items → WalksEntry directories path none items

end

inductive Walks (path : String) : List WalkItem → Prop
  | unusable {fault} : files.entry path = Except.error fault →
      Walks path [.fault (.unusable (some path) fault)]
  | entry {kind? items} : files.entry path = Except.ok kind? → WalksEntry files [] path kind? items →
      Walks path items

variable {files}

theorem WalksEntries.at {directories : List String} {directory path : String} {entry : DirectoryEntry}
    {more : List DirectoryEntry} {here there : List WalkItem}
    (hpath : childPath directory entry.name = path)
    (hhere : files.WalksEntry directories path entry.kind here)
    (hthere : files.WalksEntries directories directory more there) :
    files.WalksEntries directories directory (entry :: more) (here ++ there) :=
  .cons (hpath ▸ hhere) hthere

/-! ## The walk of the program -/

section SameDirectory

variable {place : String} {directories : List String}

theorem sameDirectory?_of_elsewhere {inner : List String}
    (h : ∀ directory ∈ inner, files.Elsewhere place directory) (outer : List String) :
    files.sameDirectory? place (inner ++ outer) = files.sameDirectory? place outer := by
  induction inner with
  | nil => rfl
  | cons directory inner ih =>
    obtain ⟨⟨other, hother, hne⟩, hinner⟩ := List.forall_mem_cons.mp h
    rw [List.cons_append, sameDirectory?, hother]
    dsimp only [bind, pure]
    rw [if_neg hne, ih hinner]

/-- What a comparison finds: a directory at the place or one that cannot be opened, after others at
other places, or only such. -/
theorem sameDirectory?_cases (files : FileAccess Id) (place : String) (directories : List String) :
    (∃ inner closed outer fault, directories = inner ++ closed :: outer ∧
        (∀ directory ∈ inner, files.Elsewhere place directory) ∧ files.place closed = Except.error fault) ∨
      (∃ inner ancestor outer, directories = inner ++ ancestor :: outer ∧
        (∀ directory ∈ inner, files.Elsewhere place directory) ∧ files.place ancestor = Except.ok place) ∨
      ∀ directory ∈ directories, files.Elsewhere place directory := by
  induction directories with
  | nil => exact .inr (.inr (List.forall_mem_nil _))
  | cons directory more ih =>
    cases hplace : (files.place directory : Except FileFault String) with
    | error fault => exact .inl ⟨[], directory, more, fault, rfl, List.forall_mem_nil _, hplace⟩
    | ok other =>
      by_cases hsame : other = place
      · exact .inr (.inl ⟨[], directory, more, rfl, List.forall_mem_nil _, hsame ▸ hplace⟩)
      · have hhere : files.Elsewhere place directory := ⟨other, hplace, hsame⟩
        rcases ih with ⟨inner, closed, outer, fault, rfl, hinner, hclosed⟩ |
          ⟨inner, ancestor, outer, rfl, hinner, hancestor⟩ | hall
        · exact .inl ⟨directory :: inner, closed, outer, fault, rfl,
            List.forall_mem_cons.mpr ⟨hhere, hinner⟩, hclosed⟩
        · exact .inr (.inl ⟨directory :: inner, ancestor, outer, rfl,
            List.forall_mem_cons.mpr ⟨hhere, hinner⟩, hancestor⟩)
        · exact .inr (.inr (List.forall_mem_cons.mpr ⟨hhere, hall⟩))

theorem sameDirectory?_of_closed {inner outer : List String} {closed : String} {fault : FileFault}
    (hinner : ∀ directory ∈ inner, files.Elsewhere place directory)
    (hclosed : files.place closed = Except.error fault) :
    files.sameDirectory? place (inner ++ closed :: outer) = Except.error fault := by
  rw [sameDirectory?_of_elsewhere hinner, sameDirectory?, hclosed]
  rfl

theorem sameDirectory?_of_same {inner outer : List String} {ancestor : String}
    (hinner : ∀ directory ∈ inner, files.Elsewhere place directory)
    (hancestor : files.place ancestor = Except.ok place) :
    files.sameDirectory? place (inner ++ ancestor :: outer) = Except.ok (some ancestor) := by
  rw [sameDirectory?_of_elsewhere hinner, sameDirectory?, hancestor]
  dsimp only [bind, pure]
  rw [if_pos rfl]

theorem sameDirectory?_of_none (h : ∀ directory ∈ directories, files.Elsewhere place directory) :
    files.sameDirectory? place directories = Except.ok none := by
  have hnil := sameDirectory?_of_elsewhere h []
  rw [List.append_nil] at hnil
  exact hnil

end SameDirectory

section Below

variable {below : String → Id (List WalkItem)} {directories : List String}

/-- A link is walked by what the system says of its target and, if that is a directory, by what comes of the
comparison with the directories around it. -/
theorem walksEntry_link_iff {path : String}
    (hbelow : ∀ items, files.WalksDirectory directories path items ↔ below path = items)
    {items : List WalkItem} :
    files.WalksEntry directories path none items ↔ files.walkEntry below directories path none = items := by
  unfold walkEntry
  dsimp only [bind, pure]
  constructor
  · intro h
    cases h with
    | dangling hkind => rw [hkind]
    | linkToFile hkind => rw [hkind]
    | linkToOther hkind => rw [hkind]
    | linkToClosed hkind hplace => rw [hkind, hplace]
    | linkInClosed hkind hplace hinner hclosed =>
      rw [hkind, hplace]
      dsimp only
      rw [sameDirectory?_of_closed hinner hclosed]
    | linkBack hkind hplace hinner hancestor =>
      rw [hkind, hplace]
      dsimp only
      rw [sameDirectory?_of_same hinner hancestor]
    | linkToDirectory hkind hplace helsewhere hwalk =>
      rw [hkind, hplace]
      dsimp only
      rw [sameDirectory?_of_none helsewhere]
      exact (hbelow _).mp hwalk
  · intro h
    subst h
    split
    · next hkind => exact .dangling hkind
    · next hkind => exact .linkToFile hkind
    · next hkind => exact .linkToOther hkind
    · next hkind =>
      split
      · next hplace => exact .linkToClosed hkind hplace
      · next place hplace =>
        rcases sameDirectory?_cases files place directories with
          ⟨inner, closed, outer, fault, rfl, hinner, hclosed⟩ |
          ⟨inner, ancestor, outer, rfl, hinner, hancestor⟩ | helsewhere
        · rw [sameDirectory?_of_closed hinner hclosed]
          exact .linkInClosed hkind hplace hinner hclosed
        · rw [sameDirectory?_of_same hinner hancestor]
          exact .linkBack hkind hplace hinner hancestor
        · rw [sameDirectory?_of_none helsewhere]
          exact .linkToDirectory hkind hplace helsewhere ((hbelow _).mpr rfl)

theorem walksEntry_iff {path : String}
    (hbelow : ∀ items, files.WalksDirectory directories path items ↔ below path = items)
    {kind : Option FileKind} {items : List WalkItem} :
    files.WalksEntry directories path kind items ↔
      files.walkEntry below directories path kind = items := by
  cases kind with
  | none => exact walksEntry_link_iff hbelow
  | some kind =>
    cases kind with
    | file =>
      constructor
      · intro h
        cases h
        rfl
      · intro h
        cases h
        exact .file
    | directory =>
      constructor
      · intro h
        cases h with
        | directory h => exact (hbelow _).mp h
      · intro h
        exact .directory ((hbelow _).mpr h)
    | other =>
      constructor
      · intro h
        cases h
        rfl
      · intro h
        cases h
        exact .other

theorem walksEntries_iff {directory : String} {entries : List DirectoryEntry}
    (hbelow : ∀ entry ∈ entries, ∀ items,
      files.WalksDirectory directories (childPath directory entry.name) items ↔
        below (childPath directory entry.name) = items)
    {items : List WalkItem} :
    files.WalksEntries directories directory entries items ↔
      files.walkEntries below directories directory entries = items := by
  induction entries generalizing items with
  | nil =>
    constructor
    · intro h
      cases h
      rfl
    · intro h
      cases h
      exact .nil
  | cons entry more ih =>
    obtain ⟨hentry, hmore⟩ := List.forall_mem_cons.mp hbelow
    constructor
    · intro h
      cases h with
      | cons hhere hthere =>
        cases (walksEntry_iff hentry).mp hhere
        cases (ih hmore).mp hthere
        rfl
    · intro h
      cases h
      exact .cons ((walksEntry_iff hentry).mpr rfl) ((ih hmore).mpr rfl)

end Below

/-- The order in which a walk takes the entries of a directory. -/
def inOrder (entries : List DirectoryEntry) : List DirectoryEntry :=
  entries.mergeSort fun a b => a.name ≤ b.name

theorem inOrder_perm (entries : List DirectoryEntry) : (inOrder entries).Perm entries :=
  List.mergeSort_perm _ _

theorem before_inOrder {entries : List DirectoryEntry} (h : (entries.map DirectoryEntry.name).Nodup) :
    (inOrder entries).Pairwise DirectoryEntry.Before := by
  have hle : (inOrder entries).Pairwise fun a b => decide (a.name ≤ b.name) = true := by
    apply List.pairwise_mergeSort
    · intro a b c hab hbc
      simp only [decide_eq_true_eq] at hab hbc ⊢
      exact String.le_trans hab hbc
    · intro a b
      simpa using String.le_total a.name b.name
  have hne : (inOrder entries).Pairwise fun a b => a.name ≠ b.name :=
    List.pairwise_map.mp (((inOrder_perm entries).map _).nodup_iff.mpr h)
  refine (hle.and hne).imp ?_
  intro a b hab
  apply nameBytes_lt
  exact lt_of_le_of_ne (of_decide_eq_true hab.1) hab.2

theorem eq_inOrder {entries sorted : List DirectoryEntry} (h : (entries.map DirectoryEntry.name).Nodup)
    (hperm : sorted.Perm entries) (hsorted : sorted.Pairwise DirectoryEntry.Before) :
    sorted = inOrder entries := by
  refine List.Perm.eq_of_pairwise ?_ hsorted (before_inOrder h) (hperm.trans (inOrder_perm entries).symm)
  intro a b _ _ hab hba
  exact absurd hba (List.lt_asymm hab)

theorem walksDirectory_of_unreadable {outer : List String} {directory : String} {fault : FileFault}
    (h : files.list directory = Except.error fault) {items : List WalkItem} :
    files.WalksDirectory outer directory items ↔ items = [.fault (.unusable (some directory) fault)] := by
  constructor
  · intro hwalk
    cases hwalk with
    | unreadable h' =>
      cases h.symm.trans h'
      rfl
    | listed h' => cases h.symm.trans h'
    | cutShort h' => cases h.symm.trans h'
  · intro hitems
    cases hitems
    exact .unreadable h

theorem walksDirectory_of_listed {outer : List String} {directory : String} {listing : Listing}
    (h : files.list directory = Except.ok listing)
    (hnames : (listing.entries.map DirectoryEntry.name).Nodup) {items : List WalkItem} :
    files.WalksDirectory outer directory items ↔ ∃ below, items = listingFaults listing ++ below ∧
      files.WalksEntries (directory :: outer) directory (inOrder listing.entries) below := by
  constructor
  · intro hwalk
    cases hwalk with
    | unreadable h' => cases h.symm.trans h'
    | listed h' hperm hsorted hentries =>
      cases h.symm.trans h'
      exact ⟨_, rfl, eq_inOrder hnames hperm hsorted ▸ hentries⟩
    | cutShort h' hperm hsorted hentries =>
      cases h.symm.trans h'
      exact ⟨_, rfl, eq_inOrder hnames hperm hsorted ▸ hentries⟩
  · rintro ⟨below, rfl, hentries⟩
    obtain ⟨entries, fault?⟩ := listing
    have hperm := inOrder_perm entries
    have hsorted := before_inOrder hnames
    cases fault? with
    | none => exact .listed h hperm hsorted hentries
    | some fault => exact .cutShort h hperm hsorted hentries

/-- By induction on the levels. The path of an entry is longer than that of its directory, so the
levels run out only where the path is too long to be listed. -/
theorem walksDirectory_iff (h : files.Orderly) {levels : Nat} {outer : List String} {directory : String}
    (hlevels : pathLimit ≤ levels + directory.utf8ByteSize) {items : List WalkItem} :
    files.WalksDirectory outer directory items ↔
      files.walkDirectory (levels + 1) outer directory = items := by
  induction levels generalizing outer directory items with
  | zero =>
    cases hlist : (files.list directory : Except FileFault Listing) with
    | error fault =>
      rw [walksDirectory_of_unreadable hlist, walkDirectory, hlist]
      exact eq_comm
    | ok listing =>
      have := h.bounded hlist
      omega
  | succ levels ih =>
    cases hlist : (files.list directory : Except FileFault Listing) with
    | error fault =>
      rw [walksDirectory_of_unreadable hlist, walkDirectory, hlist]
      exact eq_comm
    | ok listing =>
      have hentries (below : List WalkItem) :
          files.WalksEntries (directory :: outer) directory (inOrder listing.entries) below ↔
            files.walkEntries (files.walkDirectory (levels + 1) (directory :: outer)) (directory :: outer)
              directory (inOrder listing.entries) = below := by
        refine walksEntries_iff ?_
        intro entry hentry items
        apply ih
        have hname := (h.named hlist entry ((inOrder_perm listing.entries).mem_iff.mp hentry)).1
        have := utf8ByteSize_lt_childPath directory hname
        omega
      rw [walksDirectory_of_listed hlist (h.distinct hlist), walkDirectory, hlist]
      constructor
      · rintro ⟨below, rfl, hbelow⟩
        rw [← (hentries below).mp hbelow]
        rfl
      · rintro rfl
        exact ⟨_, rfl, (hentries _).mpr rfl⟩

theorem walks_iff (h : files.Orderly) {path : String} {items : List WalkItem} :
    files.Walks path items ↔ files.walk path = items := by
  have hentry (hpath : path ≠ "") (kind? : Option FileKind) (items : List WalkItem) :
      files.WalksEntry [] path kind? items ↔
        files.walkEntry (files.walkDirectory pathLimit []) [] path kind? = items := by
    have hlevels : pathLimit ≤ pathLimit - 1 + path.utf8ByteSize := by
      have := String.utf8ByteSize_eq_zero_iff.not.mpr hpath
      omega
    exact walksEntry_iff fun items => walksDirectory_iff h hlevels
  have hnamed (kind? : Option FileKind) (hkind : files.entry path = Except.ok kind?) : path ≠ "" := by
    intro hpath
    exact h.empty _ (hpath ▸ hkind)
  unfold walk
  dsimp only [bind, pure]
  constructor
  · intro hwalk
    cases hwalk with
    | unusable hkind => rw [hkind]
    | entry hkind hwalk =>
      rw [hkind]
      exact (hentry (hnamed _ hkind) _ _).mp hwalk
  · intro hitems
    subst hitems
    split
    · next hkind => exact .unusable hkind
    · next hkind => exact .entry hkind ((hentry (hnamed _ hkind) _ _).mpr rfl)

/-! ## Other orders of listing -/

/-- Two answers that list the same entries, in whatever order. -/
inductive SameListing : Except FileFault Listing → Except FileFault Listing → Prop
  | unreadable {fault} : SameListing (.error fault) (.error fault)
  | listed {entries entries' fault?} : entries'.Perm entries →
      SameListing (.ok ⟨entries, fault?⟩) (.ok ⟨entries', fault?⟩)

/-- The same files with the entries of directories in other orders. -/
structure Relisted (files files' : FileAccess Id) : Prop where
  kind : files'.kind = files.kind
  entry : files'.entry = files.entry
  read : files'.read = files.read
  place : files'.place = files.place
  list : ∀ path, SameListing (files.list path) (files'.list path)

theorem Relisted.exists_listed {files' : FileAccess Id} (h : files.Relisted files') {path : String}
    {listing' : Listing} (hlist : files'.list path = Except.ok listing') :
    ∃ listing, files.list path = Except.ok listing ∧ listing'.entries.Perm listing.entries := by
  have hlisting := h.list path
  generalize files.list path = listing at hlisting ⊢
  rw [hlist] at hlisting
  cases hlisting with
  | listed hperm => exact ⟨_, rfl, hperm⟩

theorem Relisted.orderly {files' : FileAccess Id} (h : files.Relisted files') (hfiles : files.Orderly) :
    files'.Orderly where
  distinct hlist := by
    obtain ⟨listing, hlist, hperm⟩ := h.exists_listed hlist
    exact (hperm.map DirectoryEntry.name).nodup_iff.mpr (hfiles.distinct hlist)
  named hlist := by
    obtain ⟨listing, hlist, hperm⟩ := h.exists_listed hlist
    intro entry hentry
    exact hfiles.named hlist entry (hperm.mem_iff.mp hentry)
  bounded hlist := by
    obtain ⟨listing, hlist, _⟩ := h.exists_listed hlist
    exact hfiles.bounded hlist
  empty := h.entry ▸ hfiles.empty

theorem walkEntry_relisted {files' : FileAccess Id} (h : files.Relisted files')
    (below : String → Id (List WalkItem)) (directories : List String) (path : String)
    (kind? : Option FileKind) :
    files'.walkEntry below directories path kind? = files.walkEntry below directories path kind? := by
  have hsame (place : String) :
      files'.sameDirectory? place directories = files.sameDirectory? place directories := by
    induction directories with
    | nil => rfl
    | cons directory more ih => simp only [sameDirectory?, h.place, ih]
  unfold walkEntry
  simp only [h.kind, h.place, hsame]

theorem walkEntries_relisted {files' : FileAccess Id} (h : files.Relisted files')
    (below : String → Id (List WalkItem)) (directories : List String) (directory : String)
    (entries : List DirectoryEntry) :
    files'.walkEntries below directories directory entries =
      files.walkEntries below directories directory entries := by
  induction entries with
  | nil => rfl
  | cons entry more ih => rw [walkEntries, walkEntries, walkEntry_relisted h, ih]

theorem walkDirectory_relisted {files' : FileAccess Id} (h : files.Orderly) (h' : files.Relisted files')
    (levels : Nat) (outer : List String) (directory : String) :
    files'.walkDirectory levels outer directory = files.walkDirectory levels outer directory := by
  induction levels generalizing outer directory with
  | zero => rfl
  | succ levels ih =>
    have hbelow := funext (ih (directory :: outer))
    have hlisting := h'.list directory
    have hdistinct : ∀ listing, files.list directory = Except.ok listing →
        (listing.entries.map DirectoryEntry.name).Nodup := fun _ hlist => h.distinct hlist
    rw [walkDirectory, walkDirectory, hbelow]
    generalize files.list directory = listing at hlisting hdistinct ⊢
    generalize files'.list directory = listing' at hlisting ⊢
    cases hlisting with
    | unreadable => rfl
    | @listed entries entries' fault? hperm =>
      have hnames := hdistinct _ rfl
      have hnames' := (hperm.map DirectoryEntry.name).nodup_iff.mpr hnames
      have horder : inOrder entries' = inOrder entries :=
        eq_inOrder hnames ((inOrder_perm entries').trans hperm) (before_inOrder hnames')
      unfold inOrder at horder
      dsimp only [bind, pure]
      rw [horder, walkEntries_relisted h']
      rfl

theorem walk_relisted {files' : FileAccess Id} (h : files.Orderly) (h' : files.Relisted files')
    (path : String) : files'.walk path = files.walk path := by
  unfold walk
  simp only [h'.entry, walkEntry_relisted h', funext (walkDirectory_relisted h h' pathLimit [])]

end FileAccess

/-! ## Paths -/

/-- The paths that items tell. -/
def toldPaths (items : List WalkItem) : List String := items.filterMap WalkItem.path?

/-- Items that tell paths below a directory, none of them twice. -/
def Spread (directory : String) (items : List WalkItem) : Prop :=
  (∀ path ∈ toldPaths items, Under directory path) ∧ (toldPaths items).Nodup

theorem spread_nil (directory : String) : Spread directory [] := ⟨by simp [toldPaths], List.nodup_nil⟩

theorem spread_single {path : String} {item : WalkItem} (h : item.path? = some path) :
    Spread path [item] := by
  have htold : toldPaths [item] = [path] := by simp [toldPaths, h]
  rw [Spread, htold]
  exact ⟨by simp [Under], List.nodup_singleton _⟩

theorem toldPaths_untold (fault : FileFault) (items : List WalkItem) :
    toldPaths (.fault (.unusable none fault) :: items) = toldPaths items := rfl

theorem Spread.untold {directory : String} {items : List WalkItem} (h : Spread directory items)
    (fault : FileFault) : Spread directory (.fault (.unusable none fault) :: items) := by
  rw [Spread, toldPaths_untold]
  exact h

/-- Items that tell paths below entries of a directory, none of them twice. -/
def SpreadOver (directory : String) (entries : List DirectoryEntry) (items : List WalkItem) : Prop :=
  (∀ path ∈ toldPaths items, ∃ entry ∈ entries, Under (childPath directory entry.name) path) ∧
    (toldPaths items).Nodup

theorem spreadOver_cons {directory : String} {entry : DirectoryEntry} {more : List DirectoryEntry}
    {here there : List WalkItem}
    (hnamed : ∀ e ∈ entry :: more, IsEntryName e.name)
    (hdistinct : ((entry :: more).map DirectoryEntry.name).Nodup)
    (hhere : Spread (childPath directory entry.name) here) (hthere : SpreadOver directory more there) :
    SpreadOver directory (entry :: more) (here ++ there) := by
  obtain ⟨hunder, hnodup⟩ := hhere
  obtain ⟨hunder', hnodup'⟩ := hthere
  have htold : toldPaths (here ++ there) = toldPaths here ++ toldPaths there := List.filterMap_append
  rw [SpreadOver, htold]
  constructor
  · intro path hpath
    rcases List.mem_append.mp hpath with hpath | hpath
    · exact ⟨entry, List.mem_cons_self, hunder path hpath⟩
    · obtain ⟨other, hother, hpath⟩ := hunder' path hpath
      exact ⟨other, List.mem_cons_of_mem _ hother, hpath⟩
  · refine hnodup.append hnodup' ?_
    -- A path below two entries tells one name for both.
    intro path hpath hpath'
    obtain ⟨other, hother, hbelow⟩ := hunder' path hpath'
    have hname := name_eq_of_under_children (hnamed entry List.mem_cons_self)
      (hnamed other (List.mem_cons_of_mem _ hother)) (hunder path hpath) hbelow
    rw [List.map_cons, List.nodup_cons] at hdistinct
    exact hdistinct.1 (hname ▸ List.mem_map_of_mem hother)

theorem spread_of_spreadOver {directory : String} {entries : List DirectoryEntry} {items : List WalkItem}
    (hnamed : ∀ entry ∈ entries, IsEntryName entry.name) (h : SpreadOver directory entries items) :
    Spread directory items := by
  obtain ⟨hunder, hnodup⟩ := h
  refine ⟨?_, hnodup⟩
  intro path hpath
  obtain ⟨entry, hentry, hpath⟩ := hunder path hpath
  exact under_of_under_child (hnamed entry hentry) hpath

namespace FileAccess

variable {files : FileAccess Id}

mutual

theorem WalksDirectory.spread (h : files.Orderly) {outer : List String} {directory : String}
    {items : List WalkItem} : files.WalksDirectory outer directory items → Spread directory items
  | .unreadable _ => spread_single rfl
  | .listed hlist hperm _ hentries => by
    have hnamed := fun entry hentry => h.named hlist entry (hperm.mem_iff.mp hentry)
    have hdistinct := (hperm.map DirectoryEntry.name).nodup_iff.mpr (h.distinct hlist)
    exact spread_of_spreadOver hnamed (hentries.spread h hnamed hdistinct)
  | .cutShort hlist hperm _ hentries => by
    have hnamed := fun entry hentry => h.named hlist entry (hperm.mem_iff.mp hentry)
    have hdistinct := (hperm.map DirectoryEntry.name).nodup_iff.mpr (h.distinct hlist)
    exact (spread_of_spreadOver hnamed (hentries.spread h hnamed hdistinct)).untold _

theorem WalksEntries.spread (h : files.Orderly) {directories : List String} {directory : String}
    {entries : List DirectoryEntry} {items : List WalkItem}
    (hnamed : ∀ entry ∈ entries, IsEntryName entry.name)
    (hdistinct : (entries.map DirectoryEntry.name).Nodup) :
    files.WalksEntries directories directory entries items → SpreadOver directory entries items
  | .nil => ⟨by simp [toldPaths], List.nodup_nil⟩
  | .cons hhere hthere =>
    spreadOver_cons hnamed hdistinct (hhere.spread h)
      (hthere.spread h (List.forall_mem_cons.mp hnamed).2 (List.nodup_cons.mp hdistinct).2)

theorem WalksEntry.spread (h : files.Orderly) {directories : List String} {path : String}
    {kind : Option FileKind} {items : List WalkItem} :
    files.WalksEntry directories path kind items → Spread path items
  | .file => spread_single rfl
  | .directory hwalk => hwalk.spread h
  | .other => spread_nil path
  | .dangling _ => spread_single rfl
  | .linkToFile _ => spread_single rfl
  | .linkToOther _ => spread_nil path
  | .linkToClosed _ _ => (spread_nil path).untold _
  | .linkInClosed _ _ _ _ => (spread_nil path).untold _
  | .linkBack _ _ _ _ => spread_single rfl
  | .linkToDirectory _ _ _ hwalk => hwalk.spread h

end

theorem Walks.spread (h : files.Orderly) {path : String} {items : List WalkItem}
    (hwalk : files.Walks path items) : Spread path items := by
  cases hwalk with
  | unusable => exact spread_single rfl
  | entry _ hwalk => exact hwalk.spread h

end FileAccess

end ConfigModules
