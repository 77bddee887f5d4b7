/-
What was written is what is read.

Here the tree may have links, and the file may be reached through them. Its path denotes the place
that it was written at, since a file there closes none of the ways to it.

* `Disk.read?_of_write?`, `Disk.read?_of_create?`: **a file that was written and may be read holds
  what was written.**
-/
import ImageMigration.Proofs.Disk.Linked

namespace ImageMigration.Disk

variable {d d' : Disk} {l : Location} {bytes : Bytes} {perms : Permissions} {p : Path}

/-- A file that was put at the free place of a path is read, if it may be. -/
lemma read?_put (hfree : d.IsFree l) (hl : d.resolve? true p = .ok l) (hread : perms.read = true) :
    (d.put l ⟨.file bytes, perms⟩).read? p = .ok bytes := by
  rw [read?, find?, (FilesDiffer.put hfree bytes perms).resolve?_eq hl]
  simp only [node?_put hfree.ne_nil, if_true, hread, Bool.not_true, Bool.false_eq_true, if_false]

/-- **A file that was written holds what was written**, if it is new or could be read before. -/
theorem read?_of_write? (hw : d.write? p bytes = .ok d')
    (hread : ∀ e, d.read? p = .error e → e = .notFound) : d'.read? p = .ok bytes := by
  obtain ⟨l, hl, ⟨hnone, rfl⟩ | ⟨⟨content, permissions⟩, hn, hdir, rfl⟩⟩ := write?_cases hw
  · exact read?_put (Or.inl hnone) hl rfl
  · rw [read?, find?, hl] at hread
    simp only [hn] at hread
    have hperms : permissions.read = true := by
      by_contra hno
      rw [if_pos (by simpa using hno)] at hread
      exact absurd (hread _ rfl) (by simp)
    rw [hperms] at hread
    cases content with
    | file old => exact read?_put (Or.inr ⟨old, permissions, hn⟩) hl hperms
    | dir => exact absurd hdir (by simp [Node.isDir])
    | link target => exact absurd (hread _ rfl) (by simp)

theorem read?_of_create? (hc : d.create? p bytes = .ok d')
    (hread : ∀ e, d.read? p = .error e → e = .notFound) : d'.read? p = .ok bytes := by
  rw [create?] at hc
  split at hc
  · exact read?_of_write? hc hread
  · split at hc <;> exact absurd hc (by simp)

end ImageMigration.Disk
