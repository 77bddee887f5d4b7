/-
What the outcomes of a batch tell about sizes.

An image is measured and encoded before anything is written for it, and no write touches an image.
So the sizes in an outcome are those of the image as the run found it and of what the encoder gave
for it, in a dry run as well, and what is not skipped saves at least one byte.

* `Outcome.IsMeasured`: the sizes of an outcome that was not skipped;
* `exists_state_of_mem_convertEach`: every outcome comes from one step of the batch;
* `isMeasured_of_mem_convertAll`: **outcomes tell true sizes**;
* `exists_encoded_of_mem_convertAll`: without an error, an image is skipped for its size only.
-/
import ImageMigration.Proofs.Conversion.Answers
import ImageMigration.Proofs.Conversion.Batch

namespace ImageMigration

open Disk (FilesChanged)

/-- What an outcome that was not skipped tells: nothing failed, and the sizes are those of the image
and of its smaller encoding. -/
structure Outcome.IsMeasured (o : Outcome) (c : Converter) (quality : Nat) (d : Disk) : Prop where
  target : o.converted = c.target o.image
  error : o.error = none
  sizes : ∃ old new perms, d.node? (Listing.place o.image) = some ⟨.file old, perms⟩ ∧
    c.encode o.image (d.read? o.image) quality = .ok new ∧ new.size < old.size ∧
    o.oldSize = old.size ∧ o.newSize = new.size

/-- Such an outcome saves at least one byte, and no more than the image has. -/
lemma Outcome.IsMeasured.savedBytes {o : Outcome} {c : Converter} {quality : Nat} {d : Disk}
    (h : o.IsMeasured c quality d) (hskip : o.skipped = false) :
    o.savedBytes = o.oldSize - o.newSize ∧ 1 ≤ o.savedBytes ∧ o.savedBytes ≤ o.oldSize := by
  obtain ⟨old, new, perms, -, -, hlt, hold, hnew⟩ := h.sizes
  have hsaved : o.savedBytes = o.oldSize - o.newSize := by
    rw [Outcome.savedBytes, hskip]
    rfl
  exact ⟨hsaved, by omega, by omega⟩

section Images

variable {c : Converter} {all images : List Path} {image target : Path} {quality oldSize : Nat}
  {encoded : Bytes} {dryRun : Bool} {d : Disk} {h : Host} {o : Outcome}

/-- The outcome of what was stored. -/
lemma store_fst_of_not_skipped
    (hskip : (store image target oldSize encoded dryRun h).1.skipped = false) :
    encoded.size < oldSize ∧
      (store image target oldSize encoded dryRun h).1
        = { image, converted := target, oldSize, newSize := encoded.size, skipped := false,
            error := none } := by
  have hends := storeEnds image target oldSize encoded dryRun h
  generalize store image target oldSize encoded dryRun h = result at hends hskip ⊢
  cases hends with
  | kept => exact absurd hskip (by simp)
  | previewed hsize => exact ⟨hsize, rfl⟩
  | unwritable => exact absurd hskip (by simp)
  | written disk hsize => exact ⟨hsize, rfl⟩

/-- The outcome of an image that was not skipped. -/
lemma convertAmong_of_not_skipped
    (hskip : (convertAmong c all quality dryRun image h).1.skipped = false) :
    c.collides all image = false ∧ ∃ size bytes, h.disk.size? image = .ok size ∧
      c.encode image (h.disk.read? image) quality = .ok bytes ∧ bytes.size < size ∧
      (convertAmong c all quality dryRun image h).1
        = { image, converted := c.target image, oldSize := size, newSize := bytes.size,
            skipped := false, error := none } := by
  have hends := conversionEnds c all quality dryRun image h
  generalize convertAmong c all quality dryRun image h = result at hends hskip ⊢
  cases hends with
  | refused => exact absurd hskip (by simp [Outcome.failed])
  | unmeasured => exact absurd hskip (by simp [giveUp, Outcome.failed])
  | unencoded => exact absurd hskip (by simp [giveUp, Outcome.failed])
  | encoded size bytes hfree hstat hencode =>
      obtain ⟨hlt, houtcome⟩ := store_fst_of_not_skipped hskip
      exact ⟨hfree, size, bytes, Host.eq_ok_of_answer hstat,
        (run_cases c image quality h.tick).2 bytes hencode, hlt, houtcome⟩

/-- What was stored without an error was skipped for its size only. -/
lemma skipped_store_of_no_error
    (hno : (store image target oldSize encoded dryRun h).1.error = none) :
    (store image target oldSize encoded dryRun h).1.skipped = false ↔ encoded.size < oldSize := by
  have hends := storeEnds image target oldSize encoded dryRun h
  generalize store image target oldSize encoded dryRun h = result at hends hno ⊢
  cases hends with
  | kept hsize => exact iff_of_false (by simp) (by omega)
  | previewed hsize => exact iff_of_true rfl hsize
  | unwritable => exact absurd hno (by simp)
  | written disk hsize => exact iff_of_true rfl hsize

/-- So was an image whose conversion met no error. -/
lemma convertAmong_of_no_error
    (hno : (convertAmong c all quality dryRun image h).1.error = none) :
    ∃ size bytes, h.disk.size? image = .ok size ∧
      c.encode image (h.disk.read? image) quality = .ok bytes ∧
      ((convertAmong c all quality dryRun image h).1.skipped = false ↔ bytes.size < size) := by
  have hends := conversionEnds c all quality dryRun image h
  generalize convertAmong c all quality dryRun image h = result at hends hno ⊢
  cases hends with
  | refused => exact absurd hno (by simp [Outcome.failed])
  | unmeasured => exact absurd hno (by simp [giveUp, Outcome.failed])
  | unencoded => exact absurd hno (by simp [giveUp, Outcome.failed])
  | encoded size bytes hfree hstat hencode =>
      exact ⟨size, bytes, Host.eq_ok_of_answer hstat,
        (run_cases c image quality h.tick).2 bytes hencode, skipped_store_of_no_error hno⟩

/-- **Every outcome comes from one step of the batch**, on a machine where only targets have
changed. -/
lemma exists_state_of_mem_convertEach (hd : d.IsTree) (he : IsNewExtension c.extension)
    (hall : ∀ i ∈ all, d.HoldsFile i ∧ i.isImage = true) (hsub : images ⊆ all)
    (hchanged : FilesChanged (c.IsTarget all all) d h.disk)
    (ho : o ∈ (convertEach c all quality dryRun images h).1) :
    o.image ∈ images ∧ ∃ h', FilesChanged (c.IsTarget all all) d h'.disk ∧
      o = (convertAmong c all quality dryRun o.image h').1 := by
  induction images generalizing h with
  | nil => exact absurd ho (by simp [convertEach])
  | cons image images ih =>
      obtain ⟨hmem, hsub'⟩ := List.cons_subset.mp hsub
      obtain ⟨hf, hi⟩ := hall image hmem
      rw [convertEach] at ho
      simp only at ho
      rcases List.mem_cons.mp ho with rfl | ho
      · have hname := (convertAmong_cases c all quality dryRun image h).1
        rw [hname]
        exact ⟨by simp, h, hchanged, rfl⟩
      · have hfirst := (convertAmong_spec hd he hf hi hchanged quality dryRun).1
        have hafter : FilesChanged (c.IsTarget all all) d
            (convertAmong c all quality dryRun image h).2.disk := by
          refine hchanged.trans (hfirst.mono ?_)
          rintro l ⟨i, hi, hrest⟩
          rw [List.mem_singleton] at hi
          exact ⟨i, by rw [hi]; exact hmem, hrest⟩
        obtain ⟨himage, h', hstate⟩ := ih hsub' hafter ho
        exact ⟨List.mem_cons_of_mem _ himage, h', hstate⟩

/-- An image is read and measured as the run found it, for no target is an image. -/
lemma exists_file_of_holdsFile (hd : d.IsTree) (hf : d.HoldsFile image) (hi : image.isImage = true)
    (hchanged : FilesChanged (c.IsTarget all all) d h.disk) :
    h.disk.read? image = d.read? image ∧ ∃ old perms,
      d.node? (Listing.place image) = some ⟨.file old, perms⟩ ∧
        ∀ size, h.disk.size? image = .ok size → size = old.size := by
  have hlinks := hchanged.hasNoLinks hd.hasNoLinks
  have hway := hf.node?_take_eq hd hchanged (not_isTarget_place hf.isPlace (Or.inl hi))
  obtain ⟨old, perms, hnode⟩ := hf.node
  have hnode' : h.disk.node? (Listing.place image) = some ⟨.file old, perms⟩ := by
    rw [← hnode]
    simpa using hway _ (Nat.le_refl _)
  rw [← hf.isPlace.2]
  refine ⟨Disk.read?_congr hd.hasNoLinks hlinks hf.isPlace.1 hway, old, perms, ?_, ?_⟩
  · rw [hf.isPlace.2, hnode]
  · exact fun size hsize => Disk.size?_pathOf hlinks hf.isPlace.1 hnode' hsize

/-- An image that did not change is measured as the run found it. -/
lemma isMeasured_convertAmong (hd : d.IsTree) (hf : d.HoldsFile image) (hi : image.isImage = true)
    (hchanged : FilesChanged (c.IsTarget all all) d h.disk)
    (hskip : (convertAmong c all quality dryRun image h).1.skipped = false) :
    (convertAmong c all quality dryRun image h).1.IsMeasured c quality d := by
  obtain ⟨-, size, bytes, hsize, hencode, hlt, houtcome⟩ := convertAmong_of_not_skipped hskip
  obtain ⟨hread, old, perms, hnode, hold⟩ := exists_file_of_holdsFile hd hf hi hchanged
  obtain rfl := hold size hsize
  rw [hread] at hencode
  rw [houtcome]
  exact ⟨rfl, rfl, old, bytes, perms, hnode, hencode, hlt, rfl, rfl⟩

/-- **The outcomes of a batch tell true sizes.** -/
lemma isMeasured_of_mem_convertAll (hd : h.disk.IsTree) (he : IsNewExtension c.extension)
    (himages : ∀ i ∈ images, h.disk.HoldsFile i ∧ i.isImage = true)
    (ho : o ∈ (convertAll c images quality dryRun h).1) (hskip : o.skipped = false) :
    o.IsMeasured c quality h.disk := by
  obtain ⟨hmem, h', hchanged, heq⟩ := exists_state_of_mem_convertEach hd he himages
    (List.Subset.refl _) (FilesChanged.refl _ _) ho
  obtain ⟨hf, hi⟩ := himages o.image hmem
  rw [heq] at hskip ⊢
  exact isMeasured_convertAmong hd hf hi hchanged hskip

/-- **Without an error an image is skipped for its size only.** -/
lemma exists_encoded_of_mem_convertAll (hd : h.disk.IsTree) (he : IsNewExtension c.extension)
    (himages : ∀ i ∈ images, h.disk.HoldsFile i ∧ i.isImage = true)
    (ho : o ∈ (convertAll c images quality dryRun h).1) (hno : o.error = none) :
    ∃ old new perms, h.disk.node? (Listing.place o.image) = some ⟨.file old, perms⟩ ∧
      c.encode o.image (h.disk.read? o.image) quality = .ok new ∧
      (o.skipped = false ↔ new.size < old.size) := by
  obtain ⟨hmem, h', hchanged, heq⟩ := exists_state_of_mem_convertEach hd he himages
    (List.Subset.refl _) (FilesChanged.refl _ _) ho
  obtain ⟨hf, hi⟩ := himages o.image hmem
  rw [heq] at hno
  obtain ⟨size, bytes, hsize, hencode, hskip⟩ := convertAmong_of_no_error hno
  obtain ⟨hread, old, perms, hnode, hold⟩ := exists_file_of_holdsFile hd hf hi hchanged
  obtain rfl := hold size hsize
  rw [hread] at hencode
  rw [← heq] at hskip
  exact ⟨old, bytes, perms, hnode, hencode, hskip⟩

end Images

end ImageMigration
