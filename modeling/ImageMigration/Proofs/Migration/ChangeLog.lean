/-
The log of a run as an account of its changes.

The stages of a run change files one after the other: first new images are written, then sources
with the edits of their plans, then images are deleted. Each change is told at once, and nothing
else looks like it in the log, whatever fails.

* `Migration.Makes`: the changes that the stages of a run can make;
* `Migration.performs_converted`, `performs_updated`: the stages that write;
  `Migration.performs_run`: a whole run;
* `Migration.mayChange_of_mem`: all changes are at places that the run may change;
* `Migration.changes_told`: **the log tells exactly what was done, in its order.**
-/
import ImageMigration.Proofs.Inventory.Searched
import ImageMigration.Proofs.Migration.NoLoss

namespace ImageMigration.Migration

open Disk (FilesChanged)
open Host (Performs)

/-- The changes of a run, by its stages. Every outcome that was not skipped has its new image
written, unless the run is dry; some sources are written with the edits of their plans; and some of
the converted and of the unused images are deleted, if that is allowed. All of this is told by the
tree that the run found. -/
structure Makes (m : Migration) (h : Host) (writes updates : List Mutation) (gone : List Path) :
    Prop where
  writes_dry : m.config.dryRun = true → writes = []
  writes : m.config.dryRun = false →
    List.Forall₂ (Mutation.Stores m.converter m.config.quality h.disk) (m.successful h) writes
  updates : ∃ files : List Path, files.Sublist (m.inventory h).codes ∧
    (m.config.dryRun = true → files = []) ∧
    List.Forall₂ (Mutation.Updates m.parser (m.lookup h) (m.project h) h.disk) files updates
  gone_sublist : gone.Sublist ((m.successful h).map Outcome.image ++ (m.classified h).1.unused)
  gone_images : gone ⊆ (m.inventory h).images
  gone_nil : m.decision h ≠ .allowed → gone = []

/-- The changes of a run account for what it did. They are those of its stages, and each is told at
once; the lines in the log that tell of a change are theirs, in their order; and they lead from the
tree before the run to the tree after it. All other files stay, and so do those with a reserved name
and those that no search gets to. -/
structure Accounts (m : Migration) (h : Host) (changes : List Mutation) : Prop where
  made : ∃ writes updates gone, changes = writes ++ updates ++ gone.map .delete ∧
    m.Makes h writes updates gone
  performed : h.Performs changes (m.run h).2
  told : ∃ told, (m.run h).2.log = h.log ++ told ∧ ∀ level : Level,
    Level.info.rank ≤ level.rank → changeLines level told = changes.map fun c => c.event.line
  replayed : Mutation.replay? changes h.disk = .ok (m.run h).2.disk
  untold : ∀ p : Path, p.IsPlace → (∀ c ∈ changes, c.path ≠ p) →
    (m.run h).2.disk.node? (Listing.place p) = h.disk.node? (Listing.place p)
  reserved : ∀ p : Path, p.IsPlace → p.isReserved = true →
    (m.run h).2.disk.node? (Listing.place p) = h.disk.node? (Listing.place p)
  ignored : ∀ p : Path, p.IsPlace →
    ¬ m.config.Searches (Listing.place (m.project h)) (Listing.place p) →
    (m.run h).2.disk.node? (Listing.place p) = h.disk.node? (Listing.place p)

variable {m : Migration} {h : Host}

/-! ### Stages -/

section Run

variable (hd : h.disk.IsTree) (he : IsNewExtension m.converter.extension)

include hd he

/-- The conversions write the new images of the run. -/
lemma performs_converted :
    ∃ writes, (m.converting h).Performs writes (m.converted h).2 ∧
      (m.config.dryRun = true → writes = []) ∧
      (m.config.dryRun = false → List.Forall₂
        (Mutation.Stores m.converter m.config.quality h.disk) (m.successful h) writes) := by
  have hused : ∀ i ∈ (m.classified h).1.used, h.disk.HoldsFile i ∧ i.isImage = true :=
    fun i hi => holdsFile_of_mem_used hd hi
  refine performs_convertEach hd he hused (List.Subset.refl _) ?_ _ _
  rw [disk_converting]
  exact FilesChanged.refl _ _

/-- The update writes sources of the run. -/
lemma performs_updated :
    ∃ files updates, (m.updating h).Performs updates (m.updated h).2 ∧
      files.Sublist (m.inventory h).codes ∧ (m.config.dryRun = true → files = []) ∧
      List.Forall₂ (Mutation.Updates m.parser (m.lookup h) (m.project h) h.disk) files updates := by
  rw [updated, updateSources]
  by_cases hnone : (m.successful h).isEmpty = true
  · rw [if_pos hnone]
    exact ⟨[], [], .refl, List.nil_sublist _, fun _ => rfl, .nil⟩
  rw [if_neg hnone, updateAll, ← lookup]
  have htold : (m.updating h).Performs [] ((m.updating h).report .updatingReferences) :=
    .report .refl rfl
  by_cases hempty : (m.lookup h).isEmpty = true
  · simp only [if_pos hempty]
    exact ⟨[], [], htold, List.nil_sublist _, fun _ => rfl, .nil⟩
  simp only [if_neg hempty]
  have hcodes : ∀ file ∈ (m.inventory h).codes, h.disk.HoldsFile file :=
    fun file hfile => (holdsFile_of_mem_codes hd hfile).1
  have hchanged : FilesChanged (fun l => ∀ file ∈ (m.inventory h).codes, l ≠ Listing.place file)
      h.disk (m.updating h).disk := by
    refine (filesChanged_converted hd he).1.mono ?_
    rintro l hl file hfile rfl
    obtain ⟨hf, hcode⟩ := holdsFile_of_mem_codes hd hfile
    exact not_isTarget_place hf.isPlace (Or.inr hcode) hl
  obtain ⟨files, updates, hperforms, hrest⟩ := performs_foldl_updateFile hd hcodes (nodup_codes hd)
    m.parser (m.lookup h) (m.project h) m.config.dryRun
    (.empty, (m.updating h).report .updatingReferences) hchanged
  exact ⟨files, updates, hperforms.after htold, hrest⟩

/-! ### Runs -/

omit he in
/-- A run that used no image may only have deleted unused ones. -/
lemma makes_of_no_used (hused : (m.classified h).1.used = []) {gone : List Path}
    (hgone : gone.Sublist (m.classified h).1.unused) (hno : m.decision h ≠ .allowed → gone = []) :
    m.Makes h [] [] gone := by
  obtain ⟨hsuccessful, -, -⟩ := updated_of_no_used hused
  constructor
  case writes_dry => exact fun _ => rfl
  case writes =>
    intro _
    rw [hsuccessful]
    exact .nil
  case updates => exact ⟨[], List.nil_sublist _, fun _ => rfl, .nil⟩
  case gone_sublist => rwa [hsuccessful]
  case gone_images => exact fun p hp => mem_images_of_mem_unused hd (hgone.subset hp)
  case gone_nil => exact hno

/-- **A run performs the changes of its stages**, whatever fails. -/
lemma performs_run :
    ∃ writes updates gone, m.Makes h writes updates gone ∧
      h.Performs (writes ++ updates ++ gone.map .delete) (m.run h).2 := by
  have hnone : (m.inventory h).images = [] → m.Makes h [] [] [] := by
    intro himages
    refine makes_of_no_used hd ?_ (List.nil_sublist _) fun _ => rfl
    rw [classified, himages]
    rfl
  have hends := runEnds m h
  generalize m.run h = after at hends ⊢
  cases hends with
  | unstarted failure hs hempty =>
      have himages : (m.inventory h).images = [] := by
        rw [hempty]
        rfl
      have hscanning : h.Performs [] (h.report (.scanning (m.project h))) := .report .refl rfl
      exact ⟨[], [], [], hnone himages, (performs_scan _ _ _).after hscanning⟩
  | noImages hs himages =>
      exact ⟨[], [], [], hnone himages, (m.performs_found h).report rfl⟩
  | noneUsed hs himages hused =>
      obtain ⟨gone, hsublist, hno, hdeletes⟩ := performs_finishUnused m (m.classified h).1
        (m.surveyed h) (m.identified h)
      have hdecision : m.decision h ≠ .allowed → gone = [] := by
        rw [decision, (updated_of_no_used hused).2.1]
        exact hno
      exact ⟨[], [], gone, makes_of_no_used hd hused hsublist hdecision,
        hdeletes.after (m.performs_identified h)⟩
  | finished =>
      obtain ⟨writes, hwrites, hdry, hstores⟩ := performs_converted hd he
      obtain ⟨files, updates, hupdates, hfiles⟩ := performs_updated hd he
      obtain ⟨gone, hsublist, hno, hdeletes⟩ := performs_cleanUp m (m.classified h).1
        (m.updated h).1 (m.successful h)
        (withUpdate (withConversions (m.surveyed h) (m.converted h).1) (m.updated h).1)
        ((m.updated h).2.report (.updatedFiles (m.updated h).1.updated))
      have himages : gone ⊆ (m.inventory h).images := by
        intro p hp
        refine (holdsFile_of_deleted hd ?_).1
        rcases List.mem_append.mp (hsublist.subset hp) with horiginal | hunused
        · exact Or.inl (List.mem_map.mp horiginal)
        · exact Or.inr hunused
      have hbefore : h.Performs (writes ++ updates)
          ((m.updated h).2.report (.updatedFiles (m.updated h).1.updated)) := by
        have hconverted := hwrites.after (m.performs_converting h)
        have hreported : h.Performs writes (m.updating h) := hconverted.report rfl
        exact (hreported.trans hupdates).report rfl
      exact ⟨writes, updates, gone, ⟨hdry, hstores, ⟨files, hfiles⟩, hsublist, himages, hno⟩,
        hbefore.trans hdeletes⟩

/-! ### Places of changes -/

omit he in
/-- What the search finds is at places that are searched. -/
lemma searches_of_mem_inventory {p : Path}
    (hp : p ∈ (m.inventory h).images ∨ p ∈ (m.inventory h).codes) :
    m.config.Searches (Listing.place (m.project h)) (Listing.place p) := by
  rcases m.scan_cases h with hs | ⟨-, -, hnone⟩
  · exact Inventory.searches_of_mem hd (h.disk.isPlace_absoluteDir _) hs hp
  · rw [hnone] at hp
    exact absurd hp (by simp [Inventory.empty])

omit he in
/-- **All changes are at places that the run may change.** -/
lemma mayChange_of_mem (hwebp : m.converter.extension = "webp".toList)
    {writes updates : List Mutation} {gone : List Path} (hmakes : m.Makes h writes updates gone)
    {c : Mutation} (hc : c ∈ writes ++ updates ++ gone.map .delete) :
    c.path.MayChange m.config (m.project h) := by
  have he : IsNewExtension m.converter.extension := by
    rw [hwebp]
    exact isNewExtension_webp
  rw [List.mem_append, List.mem_append] at hc
  rcases hc with (hwrite | hupdate) | hdelete
  · cases hdry : m.config.dryRun with
    | true =>
        rw [hmakes.writes_dry hdry] at hwrite
        exact absurd hwrite (by simp)
    | false =>
        obtain ⟨o, ho, htarget, bytes, -, rfl⟩ := exists_mem_of_forall₂ (hmakes.writes hdry) hwrite
        have hnew := (isStored_converted hd he hdry ho).isNew
        have himage := mem_images_of_mem_used hd (mem_used_of_mem_successful ho)
        obtain ⟨hf, hi⟩ := holdsFile_of_mem_images hd himage
        rw [htarget] at hnew
        rw [Mutation.path, htarget]
        exact mayChange_target hwebp hf hi hnew (searches_of_mem_inventory hd (Or.inl himage))
  · obtain ⟨files, hfiles, -, hupdates⟩ := hmakes.updates
    obtain ⟨file, hmem, source, literals, -, -, rfl⟩ := exists_mem_of_forall₂ hupdates hupdate
    have hcode := hfiles.subset hmem
    obtain ⟨hf, hc⟩ := holdsFile_of_mem_codes hd hcode
    exact mayChange_of_holdsFile hf (Or.inr hc) (searches_of_mem_inventory hd (Or.inr hcode))
  · obtain ⟨p, hp, rfl⟩ := List.mem_map.mp hdelete
    have himage := hmakes.gone_images hp
    obtain ⟨hf, hi⟩ := holdsFile_of_mem_images hd himage
    exact mayChange_of_holdsFile hf (Or.inl hi) (searches_of_mem_inventory hd (Or.inl himage))

end Run

/-- **The log tells exactly what a run did**, whatever fails on the way. The lines that tell of a
change, in a log of level info or finer, are those of a list of changes, in its order. In this order
the new images of the outcomes that were not skipped are written with their encoded bytes, sources
are written with the edits of their plans, and images of the project are deleted. Made again, these
changes lead from the tree before the run to the tree after it. A path without such a line, an image
with a reserved name and a file in an ignored directory are as they were. -/
theorem changes_told (m : Migration) (h : Host) (hd : h.disk.IsTree)
    (hwebp : m.converter.extension = "webp".toList) : ∃ changes, m.Accounts h changes := by
  have he : IsNewExtension m.converter.extension := by
    rw [hwebp]
    exact isNewExtension_webp
  obtain ⟨writes, updates, gone, hmakes, hperforms⟩ := performs_run hd he
  have hmay : ∀ c ∈ writes ++ updates ++ gone.map .delete,
      c.path.MayChange m.config (m.project h) := fun c hc => mayChange_of_mem hd hwebp hmakes hc
  have hreplay := hperforms.replay?_eq
  have hchanged := Mutation.filesChanged_replay? hd.hasNoLinks (fun c hc => (hmay c hc).isPlace)
    hreplay
  have hstays : ∀ p : Path, p.IsPlace →
      (∀ c ∈ writes ++ updates ++ gone.map .delete, c.path ≠ p) →
      (m.run h).2.disk.node? (Listing.place p) = h.disk.node? (Listing.place p) := by
    intro p hp hno
    refine hchanged.node?_eq ?_
    rintro ⟨c, hc, hplace⟩
    exact hno c hc ((hmay c hc).isPlace.eq_of_place_eq hp hplace)
  refine ⟨writes ++ updates ++ gone.map .delete, ⟨writes, updates, gone, rfl, hmakes⟩, hperforms,
    ?_, hreplay, hstays, fun p hp hreserved => ?_, fun p hp hignored => ?_⟩
  · obtain ⟨told, hlog, hchanges⟩ := hperforms.exists_log_eq
    refine ⟨told, hlog, fun level hlevel => ?_⟩
    rw [changeLines_eq hlevel, hchanges, List.map_map]
    rfl
  · refine hstays p hp fun c hc heq => ?_
    rw [← heq, (hmay c hc).not_reserved] at hreserved
    exact absurd hreserved (by simp)
  · refine hstays p hp fun c hc heq => ?_
    exact hignored (heq ▸ (hmay c hc).searched)

/-- The log of a run that converts one image of two, and deletes both. -/
theorem changes_told_of_two :
    let m := toOneByte
    let h := Host.ofDisk twoImages
    h.disk.IsTree ∧ m.converter.extension = "webp".toList ∧
      ∃ changes, m.Accounts h changes ∧ changes.map (fun c => c.event.line) =
        ["INFO FS CHANGE write /repo/public/logo.webp (3 -> 1 bytes)".toList,
          "INFO FS CHANGE rewrite /repo/src/home.ts (1 reference(s) updated)".toList,
          "INFO FS CHANGE delete /repo/public/logo.png".toList,
          "INFO FS CHANGE delete /repo/public/old.png".toList] := by
  intro m h
  obtain ⟨hscan, hinventory⟩ := inventory_twoImages
  have htree : twoImages.IsTree := by decide +kernel
  have hlines : changeLines .info (toOneByte.run (.ofDisk twoImages)).2.log =
      ["INFO FS CHANGE write /repo/public/logo.webp (3 -> 1 bytes)".toList,
        "INFO FS CHANGE rewrite /repo/src/home.ts (1 reference(s) updated)".toList,
        "INFO FS CHANGE delete /repo/public/logo.png".toList,
        "INFO FS CHANGE delete /repo/public/old.png".toList] := by
    rw [run_of_scan hscan, found, hinventory]
    decide +kernel
  obtain ⟨changes, haccounts⟩ := changes_told toOneByte (.ofDisk twoImages) htree rfl
  obtain ⟨told, hlog, hlevels⟩ := haccounts.told
  refine ⟨htree, rfl, changes, haccounts, ?_⟩
  rw [← hlevels .info (Nat.le_refl _), ← hlines, hlog]
  rfl

end ImageMigration.Migration
