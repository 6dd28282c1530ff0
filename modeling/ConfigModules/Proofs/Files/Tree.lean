import ConfigModules.Files.Tree
import ConfigModules.Proofs.Files.Walk
import ConfigModules.Proofs.Mapping

/-! A tree of files answers as an orderly file system, if the names in it are such as entries can have. -/
namespace ConfigModules

inductive FileNode.WellNamed : FileNode → Prop
  | file {content} : WellNamed (.file content)
  | link {target} : WellNamed (.link target)
  | directory {entries} : (entries.map Prod.fst).Nodup →
      (∀ entry ∈ entries, IsEntryName entry.1) →
      (∀ entry ∈ entries, WellNamed entry.2) → WellNamed (.directory entries)

def Trail.WellNamed (trail : Trail) : Prop := ∀ step ∈ trail, step.2.WellNamed

theorem Trail.WellNamed.node {trail : Trail} (h : trail.WellNamed) : trail.node.WellNamed := by
  cases trail with
  | nil => exact .directory List.nodup_nil (by simp) (by simp)
  | cons step trail => exact h step List.mem_cons_self

theorem Trail.WellNamed.tail {trail : Trail} (h : trail.WellNamed) : Trail.WellNamed trail.tail :=
  fun step hstep => h step (List.mem_of_mem_tail hstep)

theorem Trail.WellNamed.below {trail : Trail} (h : trail.WellNamed) {entries : List (String × FileNode)}
    (hentries : trail.node = .directory entries) {name : String} {node : FileNode}
    (hnode : entries.lookup name = some node) : Trail.WellNamed ((name, node) :: trail) := by
  have hdirectory := h.node
  rw [hentries] at hdirectory
  cases hdirectory with
  | directory _ _ hbelow => exact List.forall_mem_cons.mpr ⟨hbelow _ (mem_of_lookup hnode), h⟩

theorem wellNamed_descend {follow : Trail → String → List String → Except FileFault Trail}
    (hfollow : ∀ {trail target names next}, trail.WellNamed → follow trail target names = .ok next →
      next.WellNamed)
    {trail next : Trail} {names : List String} (htrail : trail.WellNamed)
    (h : descend follow trail names = .ok next) : next.WellNamed := by
  fun_induction descend follow trail names with
  | case1 trail =>
    cases h
    exact htrail
  | case2 trail names entries hentries ih => exact ih htrail h
  | case3 trail names entries hentries hname ih => exact ih htrail.tail h
  | case6 trail name names entries hentries _ _ _ target hlink =>
    exact hfollow (htrail.below hentries hlink) h
  | case7 trail name names entries hentries _ _ _ node _ hnode ih => exact ih (htrail.below hentries hnode) h
  | case4 | case5 | case8 => cases h

theorem wellNamed_resolveNames {followLast : Bool} {links : Nat} {trail next : Trail}
    {names : List String} (htrail : trail.WellNamed)
    (h : resolveNames followLast links trail names = .ok next) : next.WellNamed := by
  induction links generalizing trail names next with
  | zero =>
    refine wellNamed_descend ?_ htrail h
    intro trail target names next htrail hfollow
    split_ifs at hfollow
    cases hfollow
    exact htrail
  | succ links ih =>
    refine wellNamed_descend ?_ htrail h
    intro trail target names next htrail hfollow
    split_ifs at hfollow
    · cases hfollow
      exact htrail
    · exact ih (List.forall_mem_nil _) hfollow
    · exact ih htrail.tail hfollow

namespace FileTree

def WellNamed (t : FileTree) : Prop := (FileNode.directory t.entries).WellNamed

variable {t : FileTree}

theorem locate_of_relative (t : FileTree) (path : String) (hzero : path.contains '\x00' = false)
    (hlimit : path.utf8ByteSize < pathLimit) (hempty : path.isEmpty = false)
    (hroot : path.startsWith "/" = false) (followLast : Bool) :
    t.locate followLast path = resolveNames followLast linkLimit t.root (pathNames path) := by
  simp [locate, hzero, hempty, hroot, Nat.not_le.mpr hlimit]

theorem wellNamed_resolve (h : t.WellNamed) {path : String} {trail : Trail}
    (hresolve : t.resolve path = .ok trail) : trail.WellNamed ∧ path.utf8ByteSize < pathLimit := by
  unfold resolve locate at hresolve
  split_ifs at hresolve with _ hlimit _ hroot
  · exact ⟨wellNamed_resolveNames (List.forall_mem_nil _) hresolve, Nat.lt_of_not_le hlimit⟩
  · refine ⟨wellNamed_resolveNames ?_ hresolve, Nat.lt_of_not_le hlimit⟩
    exact List.forall_mem_singleton.mpr h

theorem listed_of_list (h : t.WellNamed) {path : String} {listing : Listing}
    (hlist : t.list path = .ok listing) :
    path.utf8ByteSize < pathLimit ∧ (listing.entries.map DirectoryEntry.name).Nodup ∧
      ∀ entry ∈ listing.entries, IsEntryName entry.name := by
  unfold list at hlist
  cases hresolve : t.resolve path with
  | error fault =>
    rw [hresolve] at hlist
    cases hlist
  | ok trail =>
    obtain ⟨htrail, hlimit⟩ := wellNamed_resolve h hresolve
    have hnode := htrail.node
    rw [hresolve] at hlist
    dsimp only [bind, Except.bind] at hlist
    split at hlist
    · next below hdirectory =>
      cases hlist
      rw [hdirectory] at hnode
      cases hnode with
      | directory hdistinct hnamed _ =>
        refine ⟨hlimit, ?_, ?_⟩
        · rw [List.map_map]
          exact hdistinct
        · intro entry hentry
          obtain ⟨e, he, rfl⟩ := List.mem_map.mp hentry
          exact hnamed e he
    · cases hlist

theorem orderly_access (h : t.WellNamed) : t.access.Orderly where
  distinct hlist := (listed_of_list h hlist).2.1
  named hlist := (listed_of_list h hlist).2.2
  bounded hlist := (listed_of_list h hlist).1
  empty kind? hkind := by
    have hmissing : t.access.entry "" = Except.error .missing := by
      simp [access, FileTree.entry, locate, pathLimit, bind, Except.bind]
    cases hmissing.symm.trans hkind

end FileTree

end ConfigModules
