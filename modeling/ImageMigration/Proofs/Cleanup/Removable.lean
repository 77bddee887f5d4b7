/-
Files that can be deleted.

Whether a file can be deleted hangs on its directory and on what is bound to fail, but not on other
files and not on the moment. So of a list of files, a deletion leaves exactly those that it cannot
delete, and a deletion that failed fails again.

* `Disk.IsRemovable`: the directory of an entry can be reached, and can lose entries;
* `Disk.exists_remove?_iff`: **that is what it takes to remove a file**;
* `Host.Removes`: a file can be deleted; `Host.removes_congr`: on another machine with the same
  directories as well; `Host.deletes?_eq_some_iff_of_holdsFile`: then its deletion removes it from
  its place;
* `node?_deleteFiles_eq_none_iff`: **what a deletion leaves.**
-/
import ImageMigration.Proofs.Cleanup.AnyOrder
import ImageMigration.Proofs.Disk.Change
import ImageMigration.Proofs.Inventory.Visits

namespace ImageMigration

open Disk (pathOf FilesChanged)

/-! ### Directories of files -/

namespace Disk

variable {d d' : Disk} {l : Location} {n : Text} {node : Node}

/-- The directory of an entry can be reached, and can get and lose entries. -/
def IsRemovable (d : Disk) (l : Location) : Prop := d.Opens l.dropLast ∧ d.isChangeable l = true

lemma FilesChanged.isRemovable_iff {places : Location → Prop} (h : FilesChanged places d d') :
    d'.IsRemovable l ↔ d.IsRemovable l := by
  rw [IsRemovable, IsRemovable, h.opens_iff, h.isChangeable_eq]

/-- **A file can be removed if its directory can be reached and can lose entries.** -/
lemma exists_remove?_iff (hd : d.HasNoLinks) (h : AreNames (l ++ [n]))
    (hnode : d.node? (l ++ [n]) = some node) (hfile : node.isDir = false) :
    (∃ d', d.remove? (pathOf (l ++ [n])) = .ok d') ↔ d.IsRemovable (l ++ [n]) := by
  rw [IsRemovable, List.dropLast_concat]
  by_cases hopens : d.Opens l
  · rw [remove?, find?_of_opens hd h hopens, hnode]
    simp only [hfile, Bool.false_eq_true, if_false]
    cases d.isChangeable (l ++ [n]) <;> simp [hopens]
  · obtain ⟨e, hr⟩ := exists_resolve?_eq_error hd h hopens false
    rw [remove?, find?, hr]
    simp [hopens]

end Disk

/-! ### Deletions on a machine -/

namespace Host

variable {h h' : Host} {p : Path} {l : Location}

/-- A file can be deleted: its directory allows it, and nothing else keeps it from being deleted. -/
def Removes (h : Host) (p : Path) : Prop :=
  h.faults 0 .delete p = none ∧ h.disk.IsRemovable (Listing.place p)

/-- Other files do not matter. -/
lemma removes_congr {places : Location → Prop} (hf : h'.faults = h.faults)
    (hchanged : FilesChanged places h.disk h'.disk) : h'.Removes p ↔ h.Removes p := by
  rw [Removes, Removes, hf, hchanged.isRemovable_iff]

/-- In a tree without links, a file is removed from its place if it can be. -/
lemma deletes?_eq_some_iff_of_holdsFile (hd : h.disk.HasNoLinks) (hf : h.disk.HoldsFile p) :
    h.deletes? p = some l ↔ l = Listing.place p ∧ h.Removes p := by
  obtain ⟨front, n, hplace⟩ := hf.concat
  obtain ⟨hnames, hpath⟩ := hf.isPlace
  obtain ⟨bytes, perms, hnode⟩ := hf.node
  rw [hplace] at hnames hpath hnode
  have hremove := Disk.exists_remove?_iff hd hnames hnode rfl
  have hat : ∀ {l}, h.disk.removes? p = some l → l = front ++ [n] := fun hremoves => by
    have hresolve := Disk.resolve?_of_removes? hremoves
    rw [← hpath] at hresolve
    exact (Disk.resolve?_pathOf hd hnames hresolve).1
  rw [hpath] at hremove
  rw [Removes, hplace, ← hremove, deletes?_eq_some_iff]
  constructor
  · rintro ⟨hfault, hremoves⟩
    exact ⟨hat hremoves, hfault, _, Disk.remove?_eq_ok_iff.mpr ⟨l, hremoves, rfl⟩⟩
  · rintro ⟨rfl, hfault, d', hr⟩
    obtain ⟨l, hremoves, -⟩ := Disk.remove?_eq_ok_iff.mp hr
    obtain rfl := hat hremoves
    exact ⟨hfault, hremoves⟩

end Host

section Deletions

variable {h : Host} {paths : List Path} {p : Path}

/-- What becomes of the machine when a file is deleted, whatever the count. -/
lemma deleteFile_snd (count : Nat) (h : Host) (path : Path) :
    (deleteFile (count, h) path).2
      = match h.answer .delete path (·.remove? path) with
        | .ok disk => Host.report { h.tick with disk } (.changed .delete path none)
        | .error e => h.tick.reportAll [.notDeleted path e, .failed .delete path e.message] := by
  rw [deleteFile_eq]
  cases h.answer .delete path (·.remove? path) <;> rfl

/-- The machine after a list of deletions does not depend on the count. -/
lemma foldl_deleteFile_snd (paths : List Path) (count count' : Nat) (h : Host) :
    (paths.foldl deleteFile (count', h)).2 = (paths.foldl deleteFile (count, h)).2 := by
  induction paths generalizing count count' h with
  | nil => rfl
  | cons path paths ih =>
      have hstep := (deleteFile_snd count' h path).trans (deleteFile_snd count h path).symm
      rw [List.foldl_cons, List.foldl_cons]
      generalize deleteFile (count', h) path = state' at hstep ⊢
      generalize deleteFile (count, h) path = state at hstep ⊢
      obtain ⟨n', host'⟩ := state'
      obtain ⟨n, host⟩ := state
      obtain rfl : host' = host := hstep
      exact ih n n' host'

/-- One list of files is deleted behind another one. -/
lemma deleteFiles_append (paths paths' : List Path) (h : Host) :
    (deleteFiles .allowed paths' (deleteFiles .allowed paths h).2).2
      = (deleteFiles .allowed (paths ++ paths') h).2 := by
  simp only [deleteFiles, if_true, List.foldl_append]
  exact foldl_deleteFile_snd paths' _ _ _

/-- **Of the files of a list, those are gone that can be deleted.** -/
lemma node?_deleteFiles_eq_none_iff (hs : h.faults.IsSteady) (hd : h.disk.HasNoLinks)
    (hfiles : ∀ p ∈ paths, h.disk.HoldsFile p) (hp : p ∈ paths) :
    (deleteFiles .allowed paths h).2.disk.node? (Listing.place p) = none ↔ h.Removes p := by
  obtain ⟨places, hdeleting⟩ := h.exists_deleting paths
  obtain ⟨bytes, perms, hnode⟩ := (hfiles p hp).node
  -- the file is gone if it stood at one of the places, and only its own deletion could do that
  have hplaces : Listing.place p ∈ places ↔ h.Removes p := by
    rw [Host.mem_places_iff hs (Host.linksApart_of_hasNoLinks hd paths) hdeleting]
    constructor
    · rintro ⟨q, hq, hl⟩
      obtain ⟨hsame, hremoves⟩ := (Host.deletes?_eq_some_iff_of_holdsFile hd (hfiles q hq)).mp hl
      rwa [(hfiles p hp).isPlace.eq_of_place_eq (hfiles q hq).isPlace hsame]
    · intro hremoves
      have hl := (Host.deletes?_eq_some_iff_of_holdsFile hd (hfiles p hp)).mpr ⟨rfl, hremoves⟩
      exact ⟨p, hp, hl⟩
  rw [hdeleting.node?_eq, hnode, ← hplaces]
  by_cases hmem : Listing.place p ∈ places <;> simp [hmem]

end Deletions

end ImageMigration
