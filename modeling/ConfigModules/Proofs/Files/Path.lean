import ConfigModules.Files.Basic
import Mathlib.Data.List.Lex
import Mathlib.Data.List.TakeWhile
import Mathlib.Data.String.Basic
import Mathlib.Tactic.SplitIfs

/-! Names and paths. Names in the order of their characters are in the order of their bytes, and a path
below a directory tells the entry of the directory that it leads through. -/
namespace ConfigModules

def nameBytes (name : String) : List UInt8 := name.toUTF8.data.toList

theorem nameBytes_eq (name : String) :
    nameBytes name = name.toList.flatMap String.utf8EncodeChar := by
  rw [nameBytes, String.toUTF8_eq_toByteArray, ← String.utf8Encode_toList, List.utf8Encode]
  simp

/-- The first byte decides between characters of different lengths, and between characters of one
length the first of their digits to base 64 that differ. -/
theorem encoding_lt {c d : Char} (h : c < d) (s t : List UInt8) :
    String.utf8EncodeChar c ++ s < String.utf8EncodeChar d ++ t := by
  have hcd : c.val.toNat < d.val.toNat := h
  have hd : d.val.toNat < 0x110000 := by
    have := d.valid
    unfold UInt32.isValidChar Nat.isValidChar at this
    omega
  simp only [String.utf8EncodeChar]
  generalize c.val.toNat = m at hcd ⊢
  generalize d.val.toNat = n at hcd hd ⊢
  split_ifs <;> simp only [List.cons_append, List.nil_append, List.cons_lt_cons_iff,
    UInt8.lt_iff_toNat_lt, ← UInt8.toNat_inj, UInt8.toNat_ofNat'] <;>
    simp (disch := omega) only [Nat.mod_eq_of_lt] <;> omega

theorem encodings_lt {s t : List Char} (h : s < t) :
    s.flatMap String.utf8EncodeChar < t.flatMap String.utf8EncodeChar := by
  induction s generalizing t with
  | nil =>
    cases t with
    | nil => exact absurd h (List.lt_irrefl _)
    | cons d t =>
      rw [List.flatMap_nil, List.flatMap_cons]
      cases hd : String.utf8EncodeChar d with
      | nil => exact absurd hd String.utf8EncodeChar_ne_nil
      | cons b bs => exact List.nil_lt_cons _ _
  | cons c s ih =>
    cases t with
    | nil => exact absurd h (List.not_lt_nil _)
    | cons d t =>
      rw [List.flatMap_cons, List.flatMap_cons]
      rcases List.cons_lt_cons_iff.mp h with hcd | ⟨rfl, hst⟩
      · exact encoding_lt hcd _ _
      · exact List.append_left_lt (ih hst)

theorem nameBytes_lt {a b : String} (h : a < b) : nameBytes a < nameBytes b := by
  rw [nameBytes_eq, nameBytes_eq]
  exact encodings_lt (String.lt_iff_toList_lt.mp h)

/-- What the paths of a directory's entries begin with. -/
def stem (directory : String) : List Char := (childPath directory "").toList

def Under (directory path : String) : Prop := path = directory ∨ stem directory <+: path.toList

theorem toList_childPath (directory name : String) :
    (childPath directory name).toList = stem directory ++ name.toList := by
  unfold stem childPath
  split_ifs <;> simp

theorem utf8ByteSize_lt_childPath (directory : String) {name : String} (h : name ≠ "") :
    directory.utf8ByteSize < (childPath directory name).utf8ByteSize := by
  have hname : 0 < name.utf8ByteSize := by
    have := String.utf8ByteSize_eq_zero_iff.not.mpr h
    omega
  unfold childPath
  split_ifs
  · rw [String.utf8ByteSize_append]
    omega
  · rw [String.utf8ByteSize_append, String.utf8ByteSize_append]
    omega

/-- What an entry of a directory can be called. -/
def IsEntryName (name : String) : Prop := name ≠ "" ∧ '/' ∉ name.toList

instance (name : String) : Decidable (IsEntryName name) :=
  inferInstanceAs (Decidable (name ≠ "" ∧ '/' ∉ name.toList))

section Child

variable {directory name : String} (hname : IsEntryName name)
include hname

theorem stem_childPath : stem (childPath directory name) = (childPath directory name).toList ++ ['/'] := by
  obtain ⟨hempty, hslash⟩ := hname
  have hnonempty : (childPath directory name).isEmpty = false := by
    have hchars : (childPath directory name).toList ≠ [] := by
      simp [toList_childPath, hempty]
    simpa using hchars
  have hlast : (childPath directory name).endsWith "/" = false := by
    rw [Bool.eq_false_iff]
    intro hends
    rw [String.endsWith_eq_endsWith_toSlice, String.Slice.endsWith_string_iff, String.copy_toSlice,
      toList_childPath] at hends
    have hchars : name.toList ≠ [] := by simpa using hempty
    have hslash' : name.toList.getLast hchars = '/' := by
      rw [← List.getLast_append_of_ne_nil (l := stem directory) (by simp [hempty]) hchars]
      exact (hends.getLast (by decide)).symm
    exact hslash (hslash' ▸ List.getLast_mem hchars)
  rw [stem, childPath, hnonempty, hlast]
  simp

/-- Below a directory a path goes on with the name of one entry, as a whole. -/
theorem exists_rest_of_under_child {path : String} (h : Under (childPath directory name) path) :
    ∃ rest, path.toList = stem directory ++ rest ∧ rest.takeWhile (· ≠ '/') = name.toList := by
  have hchars : ∀ c ∈ name.toList, decide (c ≠ '/') = true := by
    intro c hc
    have : c ≠ '/' := fun hslash => hname.2 (hslash ▸ hc)
    simpa using this
  cases h with
  | inl h =>
    subst h
    exact ⟨name.toList, toList_childPath directory name, List.takeWhile_eq_self_iff.mpr hchars⟩
  | inr h =>
    obtain ⟨more, hmore⟩ := h
    refine ⟨name.toList ++ '/' :: more, ?_, ?_⟩
    · rw [← hmore, stem_childPath hname, toList_childPath]
      simp
    · rw [List.takeWhile_append_of_pos hchars]
      simp

theorem under_of_under_child {path : String} (h : Under (childPath directory name) path) :
    Under directory path := by
  obtain ⟨rest, hpath, _⟩ := exists_rest_of_under_child hname h
  exact .inr ⟨rest, hpath.symm⟩

theorem name_eq_of_under_children {other path : String} (hother : IsEntryName other)
    (h : Under (childPath directory name) path) (h' : Under (childPath directory other) path) :
    name = other := by
  obtain ⟨rest, hpath, hrest⟩ := exists_rest_of_under_child hname h
  obtain ⟨rest', hpath', hrest'⟩ := exists_rest_of_under_child hother h'
  obtain rfl : rest = rest' := List.append_cancel_left (hpath.symm.trans hpath')
  exact String.toList_injective (hrest.symm.trans hrest')

end Child

end ConfigModules
