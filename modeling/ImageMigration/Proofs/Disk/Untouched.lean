/-
Files that stay while others are written.

Two paths may denote one file, through links or by `..`. When they do not, what is written at one of
them is not seen at the other: the tree differs in files only, and not at the place of this path.

* `Disk.DenoteApart`: paths that do not denote one place; `Disk.pairwise_denoteApart`: **in a tree
  without links, different paths of places are such paths**;
* `Disk.exists_find?_of_readText?`, `Disk.write?_of_find?`: a file that is there, as it is read and
  written over;
* `Disk.SameAt`, `Disk.FilesDiffer.readText?_eq_ok`: **a file that stays is read the same.**
-/
import ImageMigration.Proofs.Disk.Change
import ImageMigration.Proofs.Disk.Linked

namespace ImageMigration.Disk

/-- The paths do not denote one place. -/
def DenoteApart (d : Disk) (p q : Path) : Prop :=
  ∀ l, d.resolve? true p = .ok l → d.resolve? true q ≠ .ok l

/-- What stands at the place of the path is the same in both trees. -/
def SameAt (d d' : Disk) (p : Path) : Prop :=
  ∀ l, d.resolve? true p = .ok l → d'.node? l = d.node? l

variable {d d' : Disk} {p q : Path} {l : Location} {n : Node} {t : Text}

/-! ### Paths of different files -/

lemma DenoteApart.symm (h : d.DenoteApart p q) : d.DenoteApart q p :=
  fun l hq hp => h l hp hq

/-- Different paths of places denote different places, if there are no links. -/
lemma denoteApart_of_isPlace (hd : d.HasNoLinks) (hp : p.IsPlace) (hq : q.IsPlace) (hne : p ≠ q) :
    d.DenoteApart p q := by
  intro l hl hl'
  rw [← hp.2] at hl
  rw [← hq.2] at hl'
  have hsame := (resolve?_pathOf hd hp.1 hl).1.symm.trans (resolve?_pathOf hd hq.1 hl').1
  exact hne (hp.eq_of_place_eq hq hsame)

/-- **In a tree without links, different paths of places denote different files.** -/
lemma pairwise_denoteApart (hd : d.HasNoLinks) {paths : List Path} (hp : ∀ p ∈ paths, p.IsPlace)
    (hnodup : paths.Nodup) : paths.Pairwise d.DenoteApart :=
  hnodup.imp_of_mem fun hmem hmem' hne => denoteApart_of_isPlace hd (hp _ hmem) (hp _ hmem') hne

/-! ### A file that is there -/

/-- A path whose text can be read denotes a file. -/
lemma exists_find?_of_readText? (h : d.readText? p = .ok t) :
    ∃ l perms, d.find? true p = .ok (l, ⟨.file t.toUtf8, perms⟩) := by
  rw [readText?_eq_ok_iff, read?] at h
  cases hf : d.find? true p with
  | error e => rw [hf] at h; exact absurd h (by simp)
  | ok found =>
      obtain ⟨l, ⟨content, perms⟩⟩ := found
      rw [hf] at h
      simp only at h
      split at h
      · exact absurd h (by simp)
      · cases content with
        | file bytes =>
            rw [Except.ok.injEq] at h
            exact ⟨l, perms, by rw [h]⟩
        | dir => exact absurd h (by simp)
        | link target => exact absurd h (by simp)

/-- A file that is there is written over. -/
lemma write?_of_find? (h : d.find? true p = .ok (l, n)) (bytes : Bytes) :
    d.write? p bytes
      = if n.isDir then .error .isDirectory
        else if n.permissions.write then .ok (d.put l ⟨.file bytes, n.permissions⟩)
        else .error .permissionDenied := by
  obtain ⟨hl, hn⟩ := find?_eq_ok_iff.mp h
  rw [write?, hl]
  simp only [hn]

/-! ### A file that stays -/

namespace FilesDiffer

variable (h : FilesDiffer d d') (hsame : d.SameAt d' p)

include h hsame

lemma find?_eq_ok (hf : d.find? true p = .ok (l, n)) : d'.find? true p = .ok (l, n) := by
  obtain ⟨hl, hn⟩ := find?_eq_ok_iff.mp hf
  exact find?_eq_ok_iff.mpr ⟨h.resolve?_eq hl, (hsame l hl).trans hn⟩

lemma sameAt_symm : d'.SameAt d p := fun l hl => (hsame l (h.symm.resolve?_eq hl)).symm

/-- **A file that stays is read the same** in both trees. -/
lemma readText?_eq_ok (ht : d.readText? p = .ok t) : d'.readText? p = .ok t := by
  obtain ⟨l, perms, hf⟩ := exists_find?_of_readText? ht
  rw [readText?, read?, hf] at ht
  rw [readText?, read?, h.find?_eq_ok hsame hf]
  exact ht

end FilesDiffer

end ImageMigration.Disk
