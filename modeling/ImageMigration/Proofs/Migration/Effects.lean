/-
What the stages of a run do to the tree.

The stages write and delete at three kinds of places that never meet: new images, sources, and
images. So each file can be followed through a run by its kind alone.

* `Migration.holdsFile_of_mem_images`, `holdsFile_of_mem_codes`: what the search finds;
* `Migration.isStored_converted`, `updated_spec`: new images and sources before the last stage;
* `Migration.node?_updated_of_isImage`, `keepsEntries_updated`: before the last stage no image
  changes, and nothing is removed;
* `Migration.node?_run`: **what the last stage did**, and when it did anything.
-/
import ImageMigration.Proofs.Migration.Stages

namespace ImageMigration

open Disk (FilesChanged KeepsEntries)

namespace Migration

variable {m : Migration} {h : Host} {p file : Path} {o : Outcome} {l : Location}

/-- The decision allows deletions only on demand, not in a dry run, and without any failure. -/
lemma decision_eq_allowed (hallowed : m.decision h = .allowed) :
    m.config.deleteReplaced = true ∧ m.config.dryRun = false ∧
      (m.classified h).1.parseFailures = [] ∧ (m.updated h).1.parseFailures = [] ∧
      (m.updated h).1.writeFailures = [] ∧ (m.updated h).1.unedited = [] := by
  rw [decision, CleanupDecision.ofPasses, CleanupDecision.ofCounts] at hallowed
  split at hallowed
  · exact absurd hallowed (by simp)
  · next hdelete =>
    split at hallowed
    · exact absurd hallowed (by simp)
    · next hdry =>
      split at hallowed
      · exact absurd hallowed (by simp)
      · next hzero =>
        simp only [not_or, Nat.not_lt, Nat.le_zero_eq, Nat.add_eq_zero_iff,
          List.length_eq_zero_iff] at hzero
        obtain ⟨⟨htracker, hparse⟩, hwrite, hunedited⟩ := hzero
        exact ⟨by simpa using hdelete, by simpa using hdry, htracker, hparse, hwrite, hunedited⟩

/-- What a search that comes across its files in the order of paths finds. -/
lemma inventory_of_visits {root : Path} {images codes : List Path} (hroot : m.project h = root)
    (hdir : h.disk.isDir root = true)
    (himages : ((h.disk.visits m.config root).filterMap Visit.file?).filter Path.isImage = images)
    (hcodes : ((h.disk.visits m.config root).filterMap Visit.file?).filter Path.isCode = codes)
    (hi : images.Pairwise fun p q => p.compare q != .gt)
    (hc : codes.Pairwise fun p q => p.compare q != .gt) :
    (m.scan h).1 = .ok (m.inventory h) ∧ m.inventory h = ⟨images, codes⟩ := by
  have hproject : h.disk.absoluteDir root = root := by
    rw [← hroot]
    exact Disk.absoluteDir_of_isPlace (h.disk.isPlace_absoluteDir _)
  have hscan : (m.scan h).1 = .ok ⟨images, codes⟩ := by
    subst himages hcodes
    rw [scan, Inventory.scan, ← project, hroot, if_neg (by simp [hdir]), hproject]
    simp only [Inventory.ofVisits, Disk.visitsFrom, if_pos hdir]
    rw [filesOf_of_pairwise hi, filesOf_of_pairwise hc]
  have hinventory : m.inventory h = ⟨images, codes⟩ := by rw [inventory, hscan]
  exact ⟨by rw [hscan, hinventory], hinventory⟩

section Found

variable (hd : h.disk.IsTree)

include hd

/-- The images of a run are files with the name of an image. -/
lemma holdsFile_of_mem_images (hp : p ∈ (m.inventory h).images) :
    h.disk.HoldsFile p ∧ p.isImage = true := by
  rcases m.scan_cases h with hs | ⟨-, -, hnone⟩
  · exact Inventory.mem_images hd (h.disk.isPlace_absoluteDir _) hs hp
  · rw [hnone] at hp
    exact absurd hp List.not_mem_nil

/-- The sources of a run are files with the name of a source. -/
lemma holdsFile_of_mem_codes (hp : p ∈ (m.inventory h).codes) :
    h.disk.HoldsFile p ∧ p.isCode = true := by
  rcases m.scan_cases h with hs | ⟨-, -, hnone⟩
  · exact Inventory.mem_codes hd (h.disk.isPlace_absoluteDir _) hs hp
  · rw [hnone] at hp
    exact absurd hp List.not_mem_nil

lemma nodup_images : (m.inventory h).images.Nodup := by
  rcases m.scan_cases h with hs | ⟨-, -, hnone⟩
  · exact Inventory.nodup_images hd (h.disk.isPlace_absoluteDir _) hs
  · rw [hnone]
    exact List.nodup_nil

lemma nodup_codes : (m.inventory h).codes.Nodup := by
  rcases m.scan_cases h with hs | ⟨-, -, hnone⟩
  · exact Inventory.nodup_codes hd (h.disk.isPlace_absoluteDir _) hs
  · rw [hnone]
    exact List.nodup_nil

lemma map_normal_images : (m.inventory h).images.map Path.normal = (m.inventory h).images := by
  rw [List.map_congr_left fun p hp => (holdsFile_of_mem_images hd hp).1.isPlace.normal_eq,
    List.map_id']

lemma mem_images_of_mem_used (hp : p ∈ (m.classified h).1.used) : p ∈ (m.inventory h).images := by
  rw [← map_normal_images hd]
  exact (mem_used_iff.mp hp).1

/-- A used image is a file with the name of an image. -/
lemma holdsFile_of_mem_used (hp : p ∈ (m.classified h).1.used) :
    h.disk.HoldsFile p ∧ p.isImage = true :=
  holdsFile_of_mem_images hd (mem_images_of_mem_used hd hp)

lemma mem_images_of_mem_unused (hp : p ∈ (m.classified h).1.unused) :
    p ∈ (m.inventory h).images := by
  rw [← map_normal_images hd]
  exact (mem_unused_iff.mp hp).1

end Found

/-! ### Before the last stage -/

lemma image_converted (m : Migration) (h : Host) :
    (m.converted h).1.map Outcome.image = (m.classified h).1.used :=
  image_convertAll _ _ _ _ _

lemma mem_successful : o ∈ m.successful h ↔ o ∈ (m.converted h).1 ∧ o.skipped = false := by
  rw [successful, List.mem_filter, Bool.not_eq_true']

lemma mem_used_of_mem_successful (ho : o ∈ m.successful h) :
    o.image ∈ (m.classified h).1.used := by
  rw [← image_converted]
  exact List.mem_map_of_mem (mem_successful.mp ho).1

/-- Sources are updated by one fold over the files, unless there is nothing to look up. -/
lemma updated_cases (m : Migration) (h : Host) :
    (m.lookup h = [] ∧ (m.updated h).1 = .empty ∧
        (m.updated h).2.disk = (m.converted h).2.disk) ∨
      m.updated h = (m.inventory h).codes.foldl
        (updateFile m.parser (m.lookup h) (m.project h) m.config.dryRun)
        (.empty, (m.updating h).report .updatingReferences) := by
  rw [updated, updateSources]
  by_cases hnone : (m.successful h).isEmpty = true
  · rw [if_pos hnone]
    refine Or.inl ⟨?_, rfl, rfl⟩
    rw [lookup, List.isEmpty_iff.mp hnone]
    rfl
  rw [if_neg hnone, updateAll, ← lookup]
  by_cases hempty : (m.lookup h).isEmpty = true
  · rw [if_pos hempty]
    exact Or.inl ⟨List.isEmpty_iff.mp hempty, rfl, rfl⟩
  · rw [if_neg hempty]
    exact Or.inr rfl

/-- The lines of the log before the update leave the tree. -/
lemma disk_updating (m : Migration) (h : Host) :
    ((m.updating h).report .updatingReferences).disk = (m.converted h).2.disk := rfl

/-- What the last stage may delete are images of the project. -/
lemma holdsFile_of_deleted (hd : h.disk.IsTree)
    (hp : (∃ o ∈ m.successful h, o.image = p) ∨ p ∈ (m.classified h).1.unused) :
    p ∈ (m.inventory h).images ∧ h.disk.HoldsFile p ∧ p.isImage = true := by
  have himage : p ∈ (m.inventory h).images := by
    rcases hp with ⟨o, ho, rfl⟩ | hunused
    · exact mem_images_of_mem_used hd (mem_used_of_mem_successful ho)
    · exact mem_images_of_mem_unused hd hunused
  exact ⟨himage, holdsFile_of_mem_images hd himage⟩

section Work

variable (hd : h.disk.IsTree) (he : IsNewExtension m.converter.extension)

include hd he

/-- Conversions write new images only. -/
lemma filesChanged_converted :
    FilesChanged (m.converter.IsTarget (m.classified h).1.used (m.classified h).1.used) h.disk
        (m.converted h).2.disk ∧
      KeepsEntries h.disk (m.converted h).2.disk := by
  have hused : ∀ i ∈ (m.classified h).1.used, h.disk.HoldsFile i ∧ i.isImage = true :=
    fun i hi => holdsFile_of_mem_used hd hi
  rw [← disk_converting m h] at hd hused ⊢
  exact ⟨filesChanged_convertAll hd he hused nodup_used _ _,
    keepsEntries_convertAll hd he hused nodup_used _ _⟩

/-- The new images after the conversions. -/
lemma isStored_converted (hdry : m.config.dryRun = false) (ho : o ∈ m.successful h) :
    o.IsStored m.converter m.config.quality h.disk (m.converted h).2.disk := by
  have hused : ∀ i ∈ (m.classified h).1.used, h.disk.HoldsFile i ∧ i.isImage = true :=
    fun i hi => holdsFile_of_mem_used hd hi
  obtain ⟨hmem, hskip⟩ := mem_successful.mp ho
  rw [← disk_converting m h] at hd hused ⊢
  rw [converted, hdry] at hmem ⊢
  exact isStored_of_mem_convertAll hd he hused nodup_used hmem hskip

/-- The update writes sources only, and each of them is accounted for, unless nothing can be looked
up. -/
lemma updated_spec :
    FilesChanged (fun l => ∃ file ∈ (m.inventory h).codes, l = Listing.place file)
        (m.converted h).2.disk (m.updated h).2.disk ∧
      KeepsEntries (m.converted h).2.disk (m.updated h).2.disk ∧
      ((m.lookup h = [] ∧ (m.updated h).2.disk = (m.converted h).2.disk) ∨
        (m.config.dryRun = false → ∀ file ∈ (m.inventory h).codes,
          (m.updated h).1.Accounts m.parser (m.lookup h) (m.project h) h.disk (m.updated h).2.disk
            file)) := by
  rcases updated_cases m h with ⟨hempty, -, hsame⟩ | hfold
  · rw [hsame]
    exact ⟨FilesChanged.refl _ _, KeepsEntries.refl _, Or.inl ⟨hempty, rfl⟩⟩
  have hbefore := disk_updating m h
  generalize (m.updating h).report .updatingReferences = before at hbefore hfold
  have hcodes : ∀ file ∈ (m.inventory h).codes, h.disk.HoldsFile file :=
    fun file hfile => (holdsFile_of_mem_codes hd hfile).1
  have hchanged : FilesChanged (fun l => ∀ file ∈ (m.inventory h).codes, l ≠ Listing.place file)
      h.disk before.disk := by
    rw [hbefore]
    refine (filesChanged_converted hd he).1.mono ?_
    rintro l hl file hfile rfl
    obtain ⟨hf, hcode⟩ := holdsFile_of_mem_codes hd hfile
    exact not_isTarget_place hf.isPlace (Or.inr hcode) hl
  obtain ⟨hfiles, hkeeps, -, haccounts⟩ := foldl_updateFile_spec hd hcodes (nodup_codes hd) hchanged
    m.parser (m.lookup h) (m.project h) m.config.dryRun .empty
  rw [← hfold, hbefore] at hfiles hkeeps
  rw [← hfold] at haccounts
  exact ⟨hfiles, hkeeps, Or.inr haccounts⟩

/-- **Nothing is removed before the last stage.** -/
lemma keepsEntries_updated : KeepsEntries h.disk (m.updated h).2.disk :=
  (filesChanged_converted hd he).2.trans (updated_spec hd he).2.1

/-- Before the last stage, new images and sources are written only. -/
lemma filesChanged_updated :
    FilesChanged (fun l =>
      m.converter.IsTarget (m.classified h).1.used (m.classified h).1.used l ∨
        ∃ file ∈ (m.inventory h).codes, l = Listing.place file) h.disk (m.updated h).2.disk :=
  ((filesChanged_converted hd he).1.mono fun _ hl => Or.inl hl).trans
    ((updated_spec hd he).1.mono fun _ hl => Or.inr hl)

/-- **No image changes before the last stage.** -/
lemma node?_updated_of_isImage (hp : p.IsPlace) (hi : p.isImage = true) :
    (m.updated h).2.disk.node? (Listing.place p) = h.disk.node? (Listing.place p) := by
  refine (filesChanged_updated hd he).node?_eq ?_
  rintro (htarget | ⟨file, hfile, hplace⟩)
  · exact not_isTarget_place hp (Or.inl hi) htarget
  · obtain ⟨hf, hcode⟩ := holdsFile_of_mem_codes hd hfile
    rw [hp.eq_of_place_eq hf.isPlace hplace, Path.not_isImage_of_isCode hcode] at hi
    exact absurd hi (by simp)

/-! ### The last stage -/

/-- **After a run, an entry is as before the last stage, or it is an original or an unused image,
and is gone.** -/
lemma node?_run (l : Location) :
    (m.run h).2.disk.node? l = (m.updated h).2.disk.node? l ∨
      ((m.run h).2.disk.node? l = none ∧ m.decision h = .allowed ∧
        ∃ q, Listing.place q = l ∧
          ((∃ o ∈ m.successful h, o.image = q) ∨ q ∈ (m.classified h).1.unused)) := by
  obtain ⟨⟨before, hbefore, -, hafter⟩, -⟩ := run_cases m h
  have horiginals : ∀ q ∈ (m.successful h).map Outcome.image, q.IsPlace := fun q hq =>
    (holdsFile_of_deleted hd (Or.inl (List.mem_map.mp hq))).2.1.isPlace
  have hunused : ∀ q ∈ (m.classified h).1.unused, q.IsPlace := fun q hq =>
    (holdsFile_of_deleted hd (Or.inr hq)).2.1.isPlace
  have hlinks : before.disk.HasNoLinks := by
    rw [hbefore]
    exact (filesChanged_updated hd he).hasNoLinks hd.hasNoLinks
  have hlinks' := (filesChanged_deleteFiles horiginals hlinks (m.decision h)).hasNoLinks hlinks
  rw [hafter, ← hbefore]
  rcases node?_deleteFiles hunused hlinks' (m.decision h) l with
    hsame | ⟨hnone, hallowed, q, hq, hplace⟩
  · rw [hsame]
    rcases node?_deleteFiles horiginals hlinks (m.decision h) l with
      hsame' | ⟨hnone, hallowed, q, hq, hplace⟩
    · exact Or.inl hsame'
    · exact Or.inr ⟨hnone, hallowed, q, hplace, Or.inl (List.mem_map.mp hq)⟩
  · exact Or.inr ⟨hnone, hallowed, q, hplace, Or.inr hq⟩

/-- What is no image stays in the last stage. -/
lemma node?_run_of_not_isImage (hp : p.IsPlace) (hi : p.isImage = false) :
    (m.run h).2.disk.node? (Listing.place p) = (m.updated h).2.disk.node? (Listing.place p) := by
  rcases node?_run hd he (Listing.place p) with hsame | ⟨-, -, q, hq, hcase⟩
  · exact hsame
  · obtain ⟨-, hf, himage⟩ := holdsFile_of_deleted hd hcase
    rw [hf.isPlace.eq_of_place_eq hp hq, hi] at himage
    exact absurd himage (by simp)

end Work

end Migration

end ImageMigration
