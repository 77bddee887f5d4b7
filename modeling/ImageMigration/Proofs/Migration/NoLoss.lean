/-
No image is lost.

What a run removes is an image that it found. A used one is removed only when its smaller copy is in
place, and every other one counts as unused. Nothing is removed unless that was asked for, and no
failure of any kind is known.

* `Migration.MayRemove`: what has to hold where an image is removed;
* `Migration.removed_cases`: what was removed is an original or an unused image, and was allowed;
* `Migration.mayRemove_of_removed`, `node?_run_of_skipped`: the images that are removed, and those
  that stay;
* `Migration.run_loses_no_image`: **the whole statement.**
-/
import ImageMigration.Proofs.Migration.Effects

namespace ImageMigration.Migration

open Disk (Removed)

/-- What has to hold where an image is removed. The run found it. If it is in use, its new image is
there, with fewer bytes; if not, the run tells of it as unused. And the run was asked to delete, and
knows of no failure. -/
structure MayRemove (m : Migration) (h : Host) (p : Path) : Prop where
  found : p ∈ (m.inventory h).images
  replaced : p ∈ (m.classified h).1.used → ∃ o ∈ (m.converted h).1, o.image = p ∧
    o.skipped = false ∧ o.IsStored m.converter m.config.quality h.disk (m.run h).2.disk
  unused : p ∉ (m.classified h).1.used → p ∈ (m.classified h).1.unused
  asked : m.config.deleteReplaced = true ∧ m.config.dryRun = false
  told : ∃ s, (m.run h).1 = .ok s ∧ s.unusedImages = (m.classified h).1.unused ∧
    s.trackerParseFailures = [] ∧ s.codemodParseFailures = [] ∧ s.codemodWriteFailures = [] ∧
    s.codemodUneditedFiles = []

variable {m : Migration} {h : Host} {p : Path} {o : Outcome}

section Run

variable (hd : h.disk.IsTree) (he : IsNewExtension m.converter.extension)

include hd he

/-- **What was removed** is the original of a converted image or an unused image, and the decision
allowed it. -/
lemma removed_cases (hp : Removed h.disk (m.run h).2.disk p) :
    m.decision h = .allowed ∧
      ((∃ o ∈ m.successful h, o.image = p) ∨ p ∈ (m.classified h).1.unused) := by
  obtain ⟨hplace, hbefore, hafter⟩ := hp
  have hkept := keepsEntries_updated hd he _ hbefore
  rcases node?_run hd he (Listing.place p) with hsame | ⟨-, hallowed, q, hq, hcase⟩
  · rw [← hsame, hafter] at hkept
    exact absurd hkept (by simp)
  · obtain ⟨-, hf, -⟩ := holdsFile_of_deleted hd hcase
    rw [hf.isPlace.eq_of_place_eq hplace hq] at hcase
    exact ⟨hallowed, hcase⟩

/-- A new image outlives the rest of the run. -/
lemma isStored_run (hdry : m.config.dryRun = false) (ho : o ∈ m.successful h) :
    o.IsStored m.converter m.config.quality h.disk (m.run h).2.disk := by
  have hstored := isStored_converted hd he hdry ho
  have hnew := hstored.isNew
  have hupdated : o.IsStored m.converter m.config.quality h.disk (m.updated h).2.disk := by
    refine hstored.mono ((updated_spec hd he).1.node?_eq ?_)
    rintro ⟨file, hfile, hplace⟩
    obtain ⟨hf, hcode⟩ := holdsFile_of_mem_codes hd hfile
    rw [← hnew.isPlace.eq_of_place_eq hf.isPlace hplace, hnew.not_code] at hcode
    exact absurd hcode (by simp)
  exact hupdated.mono (node?_run_of_not_isImage hd he hnew.isPlace hnew.not_image)

/-- What was removed might be. -/
lemma mayRemove_of_removed (hp : Removed h.disk (m.run h).2.disk p) : m.MayRemove h p := by
  obtain ⟨hallowed, hcase⟩ := removed_cases hd he hp
  obtain ⟨hdelete, hdry, htracker, hparse, hwrite, hunedited⟩ := decision_eq_allowed hallowed
  obtain ⟨himage, -, -⟩ := holdsFile_of_deleted hd hcase
  obtain ⟨s, hs, htells⟩ := (run_cases m h).2.resolve_left (List.ne_nil_of_mem himage)
  refine ⟨himage, fun hused => ?_, fun hno => ?_, ⟨hdelete, hdry⟩, s, hs, htells.unused, ?_, ?_, ?_,
    ?_⟩
  · rcases hcase with ⟨o, ho, himage⟩ | hunused
    · obtain ⟨hmem, hskip⟩ := mem_successful.mp ho
      exact ⟨o, hmem, himage, hskip, isStored_run hd he hdry ho⟩
    · exact absurd hunused (not_mem_unused_of_mem_used hused)
  · rcases hcase with ⟨o, ho, rfl⟩ | hunused
    · exact absurd (mem_used_of_mem_successful ho) hno
    · exact hunused
  · rw [htells.tracker, htracker]
  · rw [htells.parse, hparse]
  · rw [htells.write, hwrite]
  · rw [htells.unedited, hunedited]

/-- An image whose conversion was skipped stays as it is. -/
lemma node?_run_of_skipped (ho : o ∈ (m.converted h).1) (hskip : o.skipped = true) :
    (m.run h).2.disk.node? (Listing.place o.image) = h.disk.node? (Listing.place o.image) := by
  have hused : o.image ∈ (m.classified h).1.used := by
    rw [← image_converted]
    exact List.mem_map_of_mem ho
  obtain ⟨hf, hi⟩ := holdsFile_of_mem_used hd hused
  rcases node?_run hd he (Listing.place o.image) with hsame | ⟨-, -, q, hq, hcase⟩
  · rw [hsame, node?_updated_of_isImage hd he hf.isPlace hi]
  have himage := (holdsFile_of_deleted hd hcase).2.1.isPlace.eq_of_place_eq hf.isPlace hq
  rcases hcase with ⟨o', ho', rfl⟩ | hunused
  · -- images have one outcome each
    obtain ⟨hmem', hskip'⟩ := mem_successful.mp ho'
    have hnodup : ((m.converted h).1.map Outcome.image).Nodup := by
      rw [image_converted]
      exact nodup_used
    rw [List.inj_on_of_nodup_map hnodup hmem' ho himage, hskip] at hskip'
    exact absurd hskip' (by simp)
  · rw [himage] at hunused
    exact absurd hunused (not_mem_unused_of_mem_used hused)

end Run

/-- **A run loses no image**, whatever fails on the way. All that it removes is images that it
found. A removed image in use has an outcome that was not skipped, and the bytes that the encoder
gave for it, fewer than it had, stand in the place of the new image; any other removed image counts
as unused. Nothing is removed unless that was asked for, the run is not dry, and both passes over
the sources went without failure. Each image in use has one outcome, and stays as it is if that was
skipped. -/
theorem run_loses_no_image (m : Migration) (h : Host) (hd : h.disk.IsTree)
    (hwebp : m.converter.extension = "webp".toList) :
    (∀ p, Removed h.disk (m.run h).2.disk p → m.MayRemove h p) ∧
    (m.converted h).1.map Outcome.image = (m.classified h).1.used ∧
    ∀ o ∈ (m.converted h).1, o.skipped = true → ∃ bytes perms,
      h.disk.node? (Listing.place o.image) = some ⟨.file bytes, perms⟩ ∧
        (m.run h).2.disk.node? (Listing.place o.image) = some ⟨.file bytes, perms⟩ := by
  have he : IsNewExtension m.converter.extension := by
    rw [hwebp]
    exact isNewExtension_webp
  refine ⟨fun p hp => mayRemove_of_removed hd he hp, image_converted m h, fun o ho hskip => ?_⟩
  have hused : o.image ∈ (m.classified h).1.used := by
    rw [← image_converted]
    exact List.mem_map_of_mem ho
  obtain ⟨hf, -⟩ := holdsFile_of_mem_used hd hused
  obtain ⟨bytes, perms, hnode⟩ := hf.node
  exact ⟨bytes, perms, hnode, by rw [node?_run_of_skipped hd he ho hskip, hnode]⟩

/-! ### A project with a used and an unused image -/

/-- An image in the public directory of a project. -/
def publicImage (name : Text) : Path := ⟨"/repo/public/".toList ++ name⟩

/-- A project with two images and one source, which refers to one of them. -/
def twoImages : Disk :=
  .ofPaths ["/repo".toList, "/repo/src".toList, "/repo/public".toList]
    [("/repo/src/home.ts".toList, Text.toUtf8 "const logo = '/logo.png';\n".toList),
     ((publicImage "logo.png".toList).text, ⟨#[1, 2, 3]⟩),
     ((publicImage "old.png".toList).text, ⟨#[1]⟩)]

/-- A run that makes one byte of every image, and deletes what it replaced. -/
def toOneByte : Migration :=
  { config := { Config.forDir ⟨"/repo".toList⟩ with deleteReplaced := true }
    converter := { extension := "webp".toList, encode := fun _ _ _ => .ok ⟨#[0]⟩ }
    parser := Script.literals? }

lemma inventory_twoImages :
    (toOneByte.scan (.ofDisk twoImages)).1 = .ok (toOneByte.inventory (.ofDisk twoImages)) ∧
      toOneByte.inventory (.ofDisk twoImages)
        = ⟨[publicImage "logo.png".toList, publicImage "old.png".toList],
          [⟨"/repo/src/home.ts".toList⟩]⟩ :=
  @inventory_of_visits toOneByte (.ofDisk twoImages) ⟨"/repo".toList⟩ _ _ (by decide +kernel)
    (by decide +kernel) (by decide +kernel) (by decide +kernel) (by decide +kernel)
    (by decide +kernel)

/-- The used image is removed for its copy of one byte, and the unused one without any. -/
theorem run_loses_no_image_of_two :
    let m := toOneByte
    let h := Host.ofDisk twoImages
    h.disk.IsTree ∧ m.converter.extension = "webp".toList ∧
      Removed h.disk (m.run h).2.disk (publicImage "logo.png".toList) ∧
      Removed h.disk (m.run h).2.disk (publicImage "old.png".toList) ∧
      (∃ o ∈ (m.converted h).1, o.image = publicImage "logo.png".toList ∧ o.skipped = false ∧
        o.IsStored m.converter m.config.quality h.disk (m.run h).2.disk) ∧
      publicImage "old.png".toList ∈ (m.classified h).1.unused := by
  intro m h
  obtain ⟨hscan, hinventory⟩ := inventory_twoImages
  have htree : twoImages.IsTree := by decide +kernel
  have hremoved : Removed twoImages (toOneByte.run (.ofDisk twoImages)).2.disk
        (publicImage "logo.png".toList) ∧
      Removed twoImages (toOneByte.run (.ofDisk twoImages)).2.disk
        (publicImage "old.png".toList) := by
    rw [run_of_scan hscan, found, hinventory]
    decide +kernel
  have hused : publicImage "logo.png".toList
        ∈ (toOneByte.classified (.ofDisk twoImages)).1.used ∧
      publicImage "old.png".toList
        ∉ (toOneByte.classified (.ofDisk twoImages)).1.used := by
    rw [classified, found, hinventory]
    decide +kernel
  obtain ⟨hall, -⟩ := run_loses_no_image toOneByte (.ofDisk twoImages) htree rfl
  exact ⟨htree, rfl, hremoved.1, hremoved.2, (hall _ hremoved.1).replaced hused.1,
    (hall _ hremoved.2).unused hused.2⟩

end ImageMigration.Migration
