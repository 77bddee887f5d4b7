/-
The numbers in the summary of a run.

They are counted in different stages, from lists that were selected in different ways, and a run has
three ends. So each number is led back to the stages, where it is the length of a list, a sum over
the outcomes, or the number of images that are gone.

* `Disk.fileSize`: the size of the file at a place;
* `Outcome.totalSaved_eq`: what was saved is the sum over the outcomes;
* `Migration.cleanup_run`: what the last stage counts;
* `Migration.Balances`: how the numbers of a summary hang together, and with the trees before and
  after the run;
* `Migration.books_balance`: **the numbers of every summary do so.**
-/
import Mathlib.Algebra.Order.BigOperators.Group.List
import Mathlib.Algebra.Order.Ring.Nat
import ImageMigration.Config.Document
import ImageMigration.Proofs.Conversion.Measured
import ImageMigration.Proofs.Lookup.Match
import ImageMigration.Proofs.Update.Counts

namespace ImageMigration

open Disk (FilesChanged Removed)

/-- The size of the file at the place of a path. -/
def Disk.fileSize (d : Disk) (p : Path) : Nat :=
  match d.node? (Listing.place p) with
  | some ⟨.file bytes, _⟩ => bytes.size
  | _ => 0

/-- What was saved by a list of outcomes is the sum over them. -/
lemma Outcome.totalSaved_eq (outcomes : List Outcome) :
    Outcome.totalSaved outcomes = (outcomes.map Outcome.savedBytes).sum := by
  rw [totalSaved, List.sum_eq_foldl, List.foldl_map]

namespace Migration

/-- How the numbers of a summary hang together: with each other, with the outcomes of the
conversions, and with the images that are gone from the tree. -/
structure Balances (m : Migration) (h : Host) (s : Summary) : Prop where
  found : s.usedImages + s.unusedImages.length = s.imagesFound
  converted_eq : s.converted = (m.successful h).length
  converted_le : s.converted ≤ s.usedImages
  measured : ∀ o ∈ m.successful h, o.IsMeasured m.converter m.config.quality h.disk
  saved_eq : s.bytesSaved = ((m.successful h).map fun o => o.oldSize - o.newSize).sum
  saved_le : s.bytesSaved ≤ maxCount
  converted_le_saved : s.converted ≤ s.bytesSaved
  errors_le : s.conversionErrors.length + s.converted ≤ s.usedImages
  files_le : s.updatedFiles + s.codemodParseFailures.length + s.codemodWriteFailures.length
    ≤ s.codeFilesFound
  failures_eq : 0 < s.converted → s.codemodParseFailures = s.trackerParseFailures
  nothing : s.converted = 0 → s.codemodParseFailures = [] ∧ s.codemodWriteFailures = [] ∧
    s.codemodUneditedFiles = [] ∧ s.updatedFiles = 0
  replaced_eq : s.deletedReplaced
    = (m.classified h).1.used.countP (Removed h.disk (m.run h).2.disk ·)
  unused_eq : s.deletedUnused
    = (m.classified h).1.unused.countP (Removed h.disk (m.run h).2.disk ·)

variable {m : Migration} {h : Host} {s : Summary}

/-! ### The last stage -/

/-- The end of a run with used images counts what it deletes. -/
lemma cleanUp_counts (s : Summary) (hno : s.deletedReplaced = 0 ∧ s.deletedUnused = 0)
    (before : Host) :
    let after := m.cleanUp (m.classified h).1 (m.updated h).1 (m.successful h) s before
    let start := before.reportAll (m.decision h).events
    let originals := deleteFiles (m.decision h) ((m.successful h).map Outcome.image) start
    let unused := deleteFiles (m.decision h) (m.classified h).1.unused originals.2
    after.1.deletedReplaced = originals.1 ∧ after.1.deletedUnused = unused.1 ∧
      after.2.disk = unused.2.disk := by
  have hdecision :
      CleanupDecision.ofPasses m.config (m.classified h).1 (m.updated h).1 = m.decision h := rfl
  simp only [cleanUp, decideCleanup, hdecision]
  by_cases hallowed : m.decision h = .allowed
  · rw [if_pos hallowed]
    exact ⟨rfl, rfl, rfl⟩
  · rw [if_neg hallowed, deleteFiles_of_not_allowed hallowed, deleteFiles_of_not_allowed hallowed]
    refine ⟨hno.1, hno.2, ?_⟩
    split <;> rfl

/-- **What the last stage counts** is what it deletes. -/
lemma cleanup_run (hscan : (m.scan h).1 = .ok (m.inventory h)) (hs : (m.run h).1 = .ok s)
    (himages : (m.inventory h).images ≠ []) :
    ∃ before : Host, before.disk = (m.updated h).2.disk ∧
      let originals := deleteFiles (m.decision h) ((m.successful h).map Outcome.image) before
      let unused := deleteFiles (m.decision h) (m.classified h).1.unused originals.2
      s.deletedReplaced = originals.1 ∧ s.deletedUnused = unused.1 ∧
        (m.run h).2.disk = unused.2.disk := by
  by_cases hused : (m.classified h).1.used = []
  · obtain ⟨hsuccessful, hresult, hdisk⟩ := updated_of_no_used hused
    rw [run_of_no_used hscan himages hused] at hs ⊢
    refine ⟨((m.identified h).report .noneUsed).reportAll (m.decision h).events, hdisk.symm, ?_⟩
    rw [hsuccessful, List.map_nil, deleteFiles_nil, decision, hresult, ← Except.ok.inj hs]
    exact ⟨rfl, rfl, rfl⟩
  · rw [run_of_used hscan hused] at hs ⊢
    refine ⟨((m.updated h).2.report (.updatedFiles (m.updated h).1.updated)).reportAll
      (m.decision h).events, rfl, ?_⟩
    rw [← Except.ok.inj hs]
    exact cleanUp_counts _ ⟨rfl, rfl⟩ _

/-! ### The other stages -/

/-- The summary before the last stage, from the stages. -/
lemma told_of_images (himages : (m.inventory h).images ≠ []) :
    m.told h = withUpdate (withConversions (m.surveyed h) (m.converted h).1) (m.updated h).1 := by
  rw [told, if_neg (by simpa using himages)]
  rfl

/-- A run that succeeds has a search that does, and tells of its stages. -/
lemma beforeCleanup_of_run (hs : (m.run h).1 = .ok s) :
    (m.scan h).1 = .ok (m.inventory h) ∧ s.beforeCleanup = m.told h := by
  have htold := beforeCleanup_run m h
  rw [hs] at htold
  rcases m.scan_cases h with hscan | ⟨failure, hscan, -⟩
  · rw [hscan] at htold
    exact ⟨hscan, by simpa [Except.map] using htold⟩
  · rw [hscan] at htold
    exact absurd htold (by simp [Except.map])

lemma nodup_successful_images : ((m.successful h).map Outcome.image).Nodup := by
  have hsublist : ((m.successful h).map Outcome.image).Sublist (m.classified h).1.used := by
    rw [← image_converted]
    exact List.filter_sublist.map Outcome.image
  exact hsublist.nodup nodup_used

section Books

variable (hd : h.disk.IsTree) (he : IsNewExtension m.converter.extension)

include hd

lemma distinct_images :
    distinct ((m.inventory h).images.map Path.normal) = (m.inventory h).images := by
  rw [map_normal_images hd, distinct_eq_self (nodup_images hd)]

/-- The images in use are images of the inventory, in its order. -/
lemma used_sublist : (m.classified h).1.used.Sublist (m.inventory h).images := by
  rw [classified, classify_fst, distinct_images hd]
  exact List.filter_sublist

/-- Every image of the inventory is used or unused. -/
lemma length_used_add_length_unused :
    (m.classified h).1.used.length + (m.classified h).1.unused.length
      = (m.inventory h).images.length := by
  rw [classified, classify_fst, distinct_images hd, Classification.ofIndex]
  simp only
  generalize (indexUsages m.parser (m.inventory h).codes (m.project h) (m.found h)).1.names = names
  rw [← List.countP_eq_length_filter, ← List.countP_eq_length_filter,
    List.length_eq_countP_add_countP names]
  simp

/-- The images in use are there before the conversions. -/
lemma holdsFile_converting : ∀ p ∈ (m.classified h).1.used,
    (m.converting h).disk.HoldsFile p ∧ p.isImage = true := by
  rw [disk_converting]
  exact fun p hp => holdsFile_of_mem_used hd hp

include he

lemma isMeasured_of_mem_successful {o : Outcome} (ho : o ∈ m.successful h) :
    o.IsMeasured m.converter m.config.quality h.disk := by
  obtain ⟨hmem, hskip⟩ := mem_successful.mp ho
  have hmeasured := isMeasured_of_mem_convertAll (by rwa [disk_converting]) he
    (holdsFile_converting hd) hmem hskip
  rwa [disk_converting] at hmeasured

/-- Without an error, an image in use is skipped for its size only. -/
lemma exists_encoded_of_mem_converted {o : Outcome} (ho : o ∈ (m.converted h).1)
    (hno : o.error = none) :
    ∃ old new perms, h.disk.node? (Listing.place o.image) = some ⟨.file old, perms⟩ ∧
      m.converter.encode o.image (h.disk.read? o.image) m.config.quality = .ok new ∧
      (o ∈ m.successful h ↔ new.size < old.size) := by
  obtain ⟨old, new, perms, hnode, hencode, hskip⟩ := exists_encoded_of_mem_convertAll
    (by rwa [disk_converting]) he (holdsFile_converting hd) ho hno
  rw [disk_converting] at hnode hencode
  refine ⟨old, new, perms, hnode, hencode, ?_⟩
  rw [mem_successful, hskip]
  exact and_iff_right ho

/-- Something can be looked up if anything was converted. -/
lemma lookup_ne_nil (hsome : m.successful h ≠ []) : m.lookup h ≠ [] := by
  obtain ⟨o, ho⟩ := List.exists_mem_of_ne_nil _ hsome
  obtain ⟨hf, hi⟩ := holdsFile_of_mem_used hd (mem_used_of_mem_successful ho)
  have htext : o.converted.text ≠ [] := by
    rw [(isMeasured_of_mem_successful hd he ho).target]
    rcases Converter.target_cases he hf hi with hnew | ⟨l, -, hdots⟩
    · obtain ⟨rest, hrest⟩ := Path.isAbsolute_iff.mp hnew.isPlace.isAbsolute
      simp [hrest]
    · rw [hdots, text_pathOf]
      simp
  have hconverted : o.isConverted = true := by
    rw [Outcome.isConverted, (mem_successful.mp ho).2]
    simpa using htext
  obtain ⟨converted, hmem⟩ := Lookup.exists_mem_ofOutcomes ho hconverted
  exact List.ne_nil_of_mem hmem

/-- What was saved is less than the size of the images. -/
lemma totalSaved_le :
    Outcome.totalSaved (m.successful h) ≤ ((m.inventory h).images.map h.disk.fileSize).sum := by
  have hsublist : ((m.successful h).map Outcome.image).Sublist (m.inventory h).images := by
    have hfilter : (m.successful h).Sublist (m.converted h).1 := List.filter_sublist
    have himages := hfilter.map Outcome.image
    rw [image_converted] at himages
    exact himages.trans (used_sublist hd)
  calc Outcome.totalSaved (m.successful h)
      = ((m.successful h).map Outcome.savedBytes).sum := Outcome.totalSaved_eq _
    _ ≤ ((m.successful h).map fun o => h.disk.fileSize o.image).sum := by
        refine List.sum_le_sum fun o ho => ?_
        have hmeasured := isMeasured_of_mem_successful hd he ho
        obtain ⟨old, new, perms, hnode, -, -, hold, -⟩ := hmeasured.sizes
        have hsize : h.disk.fileSize o.image = o.oldSize := by
          rw [Disk.fileSize, hnode, hold]
        rw [hsize]
        exact (hmeasured.savedBytes (mem_successful.mp ho).2).2.2
    _ = (((m.successful h).map Outcome.image).map h.disk.fileSize).sum := by
        rw [List.map_map]
        rfl
    _ ≤ ((m.inventory h).images.map h.disk.fileSize).sum :=
        (hsublist.map h.disk.fileSize).sum_le_sum fun _ _ => Nat.zero_le _

/-! ### Images that are gone -/

/-- An image in use is gone only if it was converted. -/
lemma countP_used_removed :
    (m.classified h).1.used.countP (Removed h.disk (m.run h).2.disk ·)
      = ((m.successful h).map Outcome.image).countP (Removed h.disk (m.run h).2.disk ·) := by
  rw [← image_converted, successful, List.countP_map, List.countP_map, List.countP_filter]
  refine List.countP_congr fun o ho => ?_
  simp only [Function.comp_apply, decide_eq_true_eq, Bool.and_eq_true, Bool.not_eq_true']
  refine ⟨fun hremoved => ⟨hremoved, ?_⟩, fun hboth => hboth.1⟩
  by_contra hskip
  have hstays := node?_run_of_skipped hd he ho (by simpa using hskip)
  obtain ⟨-, hbefore, hafter⟩ := hremoved
  rw [hstays] at hafter
  rw [hafter] at hbefore
  exact absurd hbefore (by simp)

/-- An image of the run is in the tree before the last stage. -/
lemma isSome_node?_updated {p : Path} (hp : p ∈ (m.inventory h).images) :
    ((m.updated h).2.disk.node? (Listing.place p)).isSome = true := by
  obtain ⟨hf, hi⟩ := holdsFile_of_mem_images hd hp
  obtain ⟨bytes, perms, hnode⟩ := hf.node
  rw [node?_updated_of_isImage hd he hf.isPlace hi, hnode]
  rfl

omit he in
/-- What is gone after deletions from the tree before the last stage was removed by the run. -/
lemma isNone_node?_iff {p : Path} {d : Disk} (hp : p ∈ (m.inventory h).images)
    (hsame : (m.run h).2.disk.node? (Listing.place p) = d.node? (Listing.place p)) :
    (d.node? (Listing.place p)).isNone = true ↔ Removed h.disk (m.run h).2.disk p := by
  obtain ⟨hf, -⟩ := holdsFile_of_mem_images hd hp
  obtain ⟨bytes, perms, hnode⟩ := hf.node
  rw [Option.isNone_iff_eq_none, ← hsame]
  exact ⟨fun hnone => ⟨hf.isPlace, by rw [hnode]; rfl, hnone⟩, fun hremoved => hremoved.2.2⟩

/-- **The last stage counts the images that are gone.** -/
lemma deleted_run (hs : (m.run h).1 = .ok s) (himages : (m.inventory h).images ≠ []) :
    s.deletedReplaced = (m.classified h).1.used.countP (Removed h.disk (m.run h).2.disk ·) ∧
      s.deletedUnused = (m.classified h).1.unused.countP (Removed h.disk (m.run h).2.disk ·) := by
  obtain ⟨before, hbefore, hreplaced, hunused, hafter⟩ :=
    cleanup_run (beforeCleanup_of_run hs).1 hs himages
  have horiginals : ∀ p ∈ (m.successful h).map Outcome.image,
      p ∈ (m.classified h).1.used ∧ p ∈ (m.inventory h).images ∧ p.IsPlace := by
    intro p hp
    obtain ⟨o, ho, rfl⟩ := List.mem_map.mp hp
    have hused := mem_used_of_mem_successful ho
    exact ⟨hused, mem_images_of_mem_used hd hused, (holdsFile_of_mem_used hd hused).1.isPlace⟩
  have hothers : ∀ p ∈ (m.classified h).1.unused, p ∈ (m.inventory h).images ∧ p.IsPlace :=
    fun p hp => ⟨mem_images_of_mem_unused hd hp,
      (holdsFile_of_mem_images hd (mem_images_of_mem_unused hd hp)).1.isPlace⟩
  have hlinks : before.disk.HasNoLinks := by
    rw [hbefore]
    exact (filesChanged_updated hd he).hasNoLinks hd.hasNoLinks
  -- an original is no unused image, and neither list touches the other's places
  have hapart : ∀ p ∈ (m.successful h).map Outcome.image, ∀ q ∈ (m.classified h).1.unused,
      Listing.place p ≠ Listing.place q := by
    intro p hp q hq heq
    have hsame := (horiginals p hp).2.2.eq_of_place_eq (hothers q hq).2 heq
    exact not_mem_unused_of_mem_used (horiginals p hp).1 (hsame ▸ hq)
  have hfirst := filesChanged_deleteFiles (fun p hp => (horiginals p hp).2.2) hlinks (m.decision h)
  have hlinks' := hfirst.hasNoLinks hlinks
  have hsecond := filesChanged_deleteFiles (fun p hp => (hothers p hp).2) hlinks' (m.decision h)
  rw [← hafter] at hsecond
  constructor
  · rw [countP_used_removed hd he, hreplaced, deleteFiles_fst (fun p hp => (horiginals p hp).2.2)
      nodup_successful_images hlinks fun p hp => by
        rw [hbefore]
        exact isSome_node?_updated hd he (horiginals p hp).2.1]
    refine List.countP_congr fun p hp => ?_
    rw [decide_eq_true_eq]
    refine isNone_node?_iff hd (horiginals p hp).2.1 (hsecond.node?_eq ?_)
    rintro ⟨q, hq, heq⟩
    exact hapart p hp q hq heq.symm
  · rw [hunused, deleteFiles_fst (fun p hp => (hothers p hp).2) nodup_unused hlinks' fun p hp => by
      rw [hfirst.node?_eq, hbefore]
      · exact isSome_node?_updated hd he (hothers p hp).1
      · rintro ⟨q, hq, heq⟩
        exact hapart q hq p hp heq]
    refine List.countP_congr fun p hp => ?_
    rw [decide_eq_true_eq, ← hafter]
    exact isNone_node?_iff hd (hothers p hp).1 rfl

/-! ### Both passes over the sources -/

/-- **After a conversion both passes tell of the same unreadable files.** -/
lemma parseFailures_updated (hs : h.faults.IsSteady) (hsome : m.successful h ≠ []) :
    (m.updated h).1.parseFailures = (m.classified h).1.parseFailures := by
  rcases updated_cases m h with ⟨hnone, -, -⟩ | hfold
  · exact absurd hnone (lookup_ne_nil hd he hsome)
  have hfaults := ((m.precedes_converting h).trans (m.precedes_converted h)).faults
  have hmirrors : (m.found h).Mirrors
      (m.converter.IsTarget (m.classified h).1.used (m.classified h).1.used)
      ((m.updating h).report .updatingReferences) := by
    have hsame := (m.precedes_found h).faults
    refine ⟨by rwa [disk_found], by rwa [hsame], hfaults.trans hsame.symm, ?_⟩
    rw [disk_found]
    exact (filesChanged_converted hd he).1
  have hcodes : ∀ file ∈ (m.inventory h).codes, (m.found h).disk.HoldsFile file ∧
      ¬ m.converter.IsTarget (m.classified h).1.used (m.classified h).1.used
        (Listing.place file) := by
    intro file hfile
    obtain ⟨hf, hcode⟩ := holdsFile_of_mem_codes hd hfile
    rw [disk_found]
    exact ⟨hf, not_isTarget_place hf.isPlace (Or.inr hcode)⟩
  rw [hfold, parseFailures_foldl_updateFile hmirrors hcodes (nodup_codes hd), classified,
    classify_fst, Classification.ofIndex]
  simp only
  rw [parseFailures_indexUsages hmirrors.steady]
  exact List.nil_append _

omit hd he in
/-- At most one of three things is counted for each source. -/
lemma counted_updated : (m.updated h).1.counted ≤ (m.inventory h).codes.length := by
  rcases updated_cases m h with ⟨-, hempty, -⟩ | hfold
  · rw [hempty]
    exact Nat.zero_le _
  · rw [hfold]
    exact (counted_foldl_updateFile _ _).trans (Nat.le_of_eq (Nat.zero_add _))

/-- Failures and successes are outcomes of different images. -/
lemma errors_add_successful_le :
    ((m.converted h).1.filterMap conversionError?).length + (m.successful h).length
      ≤ (m.classified h).1.used.length := by
  have hlength := congrArg List.length (image_converted m h)
  rw [List.length_map] at hlength
  have hfailed : ((m.converted h).1.filterMap conversionError?).length
      ≤ ((m.converted h).1.filter fun o => !!o.skipped).length := by
    rw [List.length_filterMap_eq_countP, ← List.countP_eq_length_filter]
    refine List.countP_mono_left fun o ho herror => ?_
    by_contra hskip
    have hmeasured := isMeasured_of_mem_successful hd he
      (mem_successful.mpr ⟨ho, by simpa using hskip⟩)
    rw [conversionError?, hmeasured.error] at herror
    exact absurd herror (by simp)
  have hall := List.length_eq_length_filter_add (l := (m.converted h).1) fun o => !o.skipped
  rw [successful]
  omega

end Books

/-- **The numbers of a summary balance.** Let a run on a tree without links, whose images have no
more bytes than a machine word counts, find images and succeed; new images have the extension
`webp`, and what fails does not depend on the moment. Then used and unused images make up those
found; conversions and failed conversions make up no more than the used ones; what was saved is the
sum of what the encodings of the images saved, fits into a machine word, and is at least a byte for
each; sources are updated, unreadable or unwritable once at most, and unreadable in both passes, if
anything was converted; and the deletions counted are the images that are gone. -/
theorem books_balance (m : Migration) (h : Host) (hd : h.disk.IsTree)
    (hwebp : m.converter.extension = "webp".toList) (hs : h.faults.IsSteady)
    (hsize : ((m.inventory h).images.map h.disk.fileSize).sum ≤ maxCount) (s : Summary)
    (hrun : (m.run h).1 = .ok s) (hfound : 0 < s.imagesFound) : m.Balances h s := by
  have he : IsNewExtension m.converter.extension := by
    rw [hwebp]
    exact isNewExtension_webp
  obtain ⟨-, htold⟩ := beforeCleanup_of_run hrun
  have himages : (m.inventory h).images ≠ [] := by
    intro hnone
    have hcount := congrArg Summary.imagesFound htold
    rw [told, if_pos (List.isEmpty_iff.mpr hnone), Summary.ofInventory, hnone] at hcount
    have hzero : s.imagesFound = 0 := hcount
    omega
  rw [told_of_images himages] at htold
  have hmeasured : ∀ o ∈ m.successful h, o.IsMeasured m.converter m.config.quality h.disk :=
    fun o ho => isMeasured_of_mem_successful hd he ho
  have hsaved : ∀ o ∈ m.successful h, o.savedBytes = o.oldSize - o.newSize ∧ 1 ≤ o.savedBytes :=
    fun o ho => ⟨((hmeasured o ho).savedBytes (mem_successful.mp ho).2).1,
      ((hmeasured o ho).savedBytes (mem_successful.mp ho).2).2.1⟩
  have husedImages : s.usedImages = (m.classified h).1.used.length :=
    congrArg Summary.usedImages htold
  have hunusedImages : s.unusedImages = (m.classified h).1.unused :=
    congrArg Summary.unusedImages htold
  have hconverted : s.converted = (m.successful h).length := congrArg Summary.converted htold
  have hbytes : s.bytesSaved = Outcome.totalSaved (m.successful h) :=
    congrArg Summary.bytesSaved htold
  have herrors : s.conversionErrors = (m.converted h).1.filterMap conversionError? :=
    congrArg Summary.conversionErrors htold
  have hupdatedFiles : s.updatedFiles = (m.updated h).1.updated :=
    congrArg Summary.updatedFiles htold
  have hparse : s.codemodParseFailures = (m.updated h).1.parseFailures :=
    congrArg Summary.codemodParseFailures htold
  have hwrite : s.codemodWriteFailures = (m.updated h).1.writeFailures :=
    congrArg Summary.codemodWriteFailures htold
  have hunedited : s.codemodUneditedFiles = (m.updated h).1.unedited :=
    congrArg Summary.codemodUneditedFiles htold
  have hfailures := errors_add_successful_le (m := m) hd he
  have hdeleted := deleted_run hd he hrun himages
  constructor
  case found =>
    rw [husedImages, hunusedImages, length_used_add_length_unused hd]
    exact (congrArg Summary.imagesFound htold).symm
  case converted_eq => exact hconverted
  case converted_le => omega
  case measured => exact hmeasured
  case saved_eq =>
    rw [hbytes, Outcome.totalSaved_eq]
    exact congrArg List.sum (List.map_congr_left fun o ho => (hsaved o ho).1)
  case saved_le =>
    rw [hbytes]
    exact (totalSaved_le hd he).trans hsize
  case converted_le_saved =>
    rw [hbytes, hconverted, Outcome.totalSaved_eq]
    have hlength := List.length_le_sum_of_one_le ((m.successful h).map Outcome.savedBytes)
      (List.forall_mem_map.mpr fun o ho => (hsaved o ho).2)
    rwa [List.length_map] at hlength
  case errors_le =>
    rw [herrors, hconverted, husedImages]
    exact hfailures
  case files_le =>
    rw [hupdatedFiles, hparse, hwrite,
      show s.codeFilesFound = (m.inventory h).codes.length from
        congrArg Summary.codeFilesFound htold]
    exact counted_updated
  case failures_eq =>
    intro hpos
    rw [hparse, parseFailures_updated hd he hs (List.ne_nil_of_length_pos (by omega))]
    exact (congrArg Summary.trackerParseFailures htold).symm
  case nothing =>
    intro hzero
    have hnone : m.successful h = [] := List.length_eq_zero_iff.mp (by omega)
    have hempty : (m.updated h).1 = .empty := by
      rw [updated, updateSources, hnone]
      rfl
    rw [hparse, hwrite, hunedited, hupdatedFiles, hempty]
    exact ⟨rfl, rfl, rfl, rfl⟩
  case replaced_eq => exact hdeleted.1
  case unused_eq => exact hdeleted.2

/-- The books of a run that converts one image of two, and deletes both. -/
theorem books_balance_of_two :
    let m := toOneByte
    let h := Host.ofDisk twoImages
    h.disk.IsTree ∧ ((m.inventory h).images.map h.disk.fileSize).sum ≤ maxCount ∧
      ∃ s, (m.run h).1 = .ok s ∧ m.Balances h s ∧ s.imagesFound = 2 ∧ s.converted = 1 ∧
        s.bytesSaved = 2 ∧ s.deletedReplaced = 1 ∧ s.deletedUnused = 1 := by
  intro m h
  obtain ⟨hscan, hinventory⟩ := inventory_twoImages
  have htree : twoImages.IsTree := by decide +kernel
  have hsize : ((toOneByte.inventory (.ofDisk twoImages)).images.map twoImages.fileSize).sum
      ≤ maxCount := by
    rw [hinventory]
    decide +kernel
  have hrun := congrArg Prod.fst (run_of_scan hscan)
  have hnumbers : ∀ s, (toOneByte.run (.ofDisk twoImages)).1 = .ok s →
      s.imagesFound = 2 ∧ s.converted = 1 ∧ s.bytesSaved = 2 ∧ s.deletedReplaced = 1 ∧
        s.deletedUnused = 1 := by
    intro s hs
    rw [hrun, Except.ok.injEq] at hs
    rw [← hs, found, hinventory]
    decide +kernel
  have hbooks := books_balance toOneByte (.ofDisk twoImages) htree rfl (fun _ _ _ _ => rfl) hsize _
    hrun
  have hvalues := hnumbers _ hrun
  exact ⟨htree, hsize, _, hrun, hbooks (by rw [hvalues.1]; decide), hvalues⟩

end Migration

end ImageMigration
