/-
A second run on what a first one left.

No state survives a run, so a second run looks at the tree anew. After a run without failures it
finds all sources edited and all new images written, and has nothing to write. But a run that deletes
looks at the references that are left: an image that stayed because its encoding was no smaller is
unused the next time, if every reference that named it was pointed to the new image of another one.

* `Migration.LeftBehind`: an image that a run kept without leaving a reference to it;
* `After.node?_updated`: **nothing is written by a second run**;
* `After.leftBehind_of_deleted`: **what a second run deletes**;
* `Migration.second_run_settles`: **a second run changes nothing else**;
  `Migration.second_run_deletes`: a project where it does delete an image.
-/
import ImageMigration.Proofs.Migration.Reread

namespace ImageMigration.Migration

open Disk (Removed)

/-- A run kept a used image whose encoding was no smaller, but each reference that names it was
taken for another image, and pointed to the new image of that one. -/
structure LeftBehind (m : Migration) (h : Host) (p : Path) : Prop where
  used : p ∈ (m.classified h).1.used
  kept : ∃ old new perms, h.disk.node? (Listing.place p) = some ⟨.file old, perms⟩ ∧
    m.converter.encode p (h.disk.read? p) m.config.quality = .ok new ∧ old.size ≤ new.size
  taken : ∀ file ∈ (m.inventory h).codes, ∀ source literals,
    h.disk.ReadsAs m.parser file source literals → ∀ value ∈ literals.filterMap Literal.value?,
      ∀ r ∈ Reference.ofValue value, r.Names ⟨m.project h, file⟩ p →
        ∃ image converted, image ≠ p ∧ (image, converted) ∈ m.lookup h ∧
          (m.lookup h).match? r ⟨m.project h, file⟩ = some converted

variable {m : Migration} {h h' : Host} {p : Path}

/-- After a run without failures the decision hangs on the configuration only. -/
lemma RanClean.decision_eq_allowed (hclean : m.RanClean h)
    (hdelete : m.config.deleteReplaced = true) (hdry : m.config.dryRun = false) :
    m.decision h = .allowed := by
  rw [decision, CleanupDecision.ofPasses, hclean.tracker, hclean.parse, hclean.write,
    hclean.unedited, CleanupDecision.ofCounts, hdelete, hdry]
  rfl

namespace After

variable (hafter : m.After h h') (hd : h.disk.IsTree) (hs : h.faults.IsSteady)
  (hwebp : m.converter.extension = "webp".toList) (hdry : m.config.dryRun = false)
  (hclean : m.RanClean h) (hreads : m.RereadsEdited h)

include hafter hd hs hwebp hdry hclean hreads

/-- **Before it deletes anything, a second run leaves all entries.** -/
lemma node?_updated (l : Location) : (m.updated h').2.disk.node? l = h'.disk.node? l := by
  have he := isNewExtension_of_webp hwebp
  have hd' := hafter.isTree hd hwebp
  -- what is converted again is there already
  obtain ⟨writes, hwrites, -, hstores⟩ := performs_converted hd' he (m := m)
  have hidle : ∀ c ∈ writes, c.path.IsPlace ∧ c.IsIdle h'.disk := by
    intro c hc
    obtain ⟨o, ho, -, bytes, hencode, rfl⟩ := exists_mem_of_forall₂ (hstores hdry) hc
    obtain ⟨bytes', perms, hencode', hplace, hnode⟩ :=
      hafter.exists_stored hd hs hwebp hdry hclean hreads ho
    obtain rfl := Except.ok.inj (hencode'.symm.trans hencode)
    exact ⟨hplace, bytes', perms, rfl, hnode⟩
  have hconverted : (m.converted h').2.disk.node? l = h'.disk.node? l := by
    have hreplay := hwrites.replay?_eq
    rw [disk_converting] at hreplay
    exact Mutation.node?_replay?_of_idle (fun c hc => (hidle c hc).1) hreplay hd'.hasNoLinks
      (fun c hc => (hidle c hc).2) l
  -- and no source has an edit
  obtain ⟨files, updates, hupdates, hfiles, -, hmade⟩ := performs_updated hd' he (m := m)
  have hnone : updates = [] := by
    refine List.eq_nil_iff_forall_not_mem.mpr fun c hc => ?_
    obtain ⟨file, hfile, source, literals, hread, hedits, -⟩ := exists_mem_of_forall₂ hmade hc
    have hcode := (hafter.mem_codes_iff hd hwebp).mp (hfiles.subset hfile)
    have hempty := hafter.plan_eq_empty hd hs hwebp hdry hclean hreads hcode hread
    exact hedits (congrArg Plan.edits hempty)
  have hreplay := hupdates.replay?_eq
  rw [hnone, Mutation.replay?, Except.ok.injEq] at hreplay
  rw [← hreplay]
  exact hconverted

omit hreads in
/-- What a second run deletes was not to be deleted by the first one: it would be gone. -/
lemma not_deleted_before (hallowed : m.decision h' = .allowed)
    (hp : (∃ o ∈ m.successful h', o.image = p) ∨ p ∈ (m.classified h').1.unused)
    (hgone : (m.run h').2.disk.node? (Listing.place p) = none) :
    ¬ ((∃ o ∈ m.successful h, o.image = p) ∨ p ∈ (m.classified h).1.unused) := by
  intro hp'
  have hd' := hafter.isTree hd hwebp
  obtain ⟨-, hf', -⟩ := holdsFile_of_deleted hd' hp
  obtain ⟨bytes, perms, hnode⟩ := hf'.node
  have hremoves : h.Removes p := (hafter.removes_iff hd hwebp).mp
    ((node?_run_eq_none_iff hd' hwebp (hafter.faults ▸ hs) hallowed hp).mp hgone)
  have hallowed' : m.decision h = .allowed :=
    hclean.decision_eq_allowed (decision_eq_allowed hallowed).1 hdry
  have hnone := (node?_run_eq_none_iff hd hwebp hs hallowed' hp').mpr hremoves
  rw [← hafter.disk, hnode] at hnone
  exact Option.some_ne_none _ hnone

/-- Where an image is unused in a second run, each reference that named it was taken for an image
that the first run converted. -/
lemma exists_match?_of_unused {file : Path} {source value : Text} {literals : List Literal}
    {r : Reference} (hunused : p ∈ (m.classified h').1.unused)
    (hfile : file ∈ (m.inventory h).codes) (hread : h.disk.ReadsAs m.parser file source literals)
    (hvalue : value ∈ literals.filterMap Literal.value?) (hr : r ∈ Reference.ofValue value)
    (hnames : r.Names ⟨m.project h, file⟩ p) :
    ∃ image converted, (image, converted) ∈ m.lookup h ∧
      (m.lookup h).match? r ⟨m.project h, file⟩ = some converted := by
  cases hmatch : (m.lookup h).match? r ⟨m.project h, file⟩ with
  | some converted =>
      obtain ⟨image, hmem, -⟩ := Lookup.exists_mem_of_match? hmatch
      exact ⟨image, converted, hmem, rfl⟩
  | none =>
      -- the reference is left, and makes the image a used one
      have hfault := faults_read_of_tracker hs hclean.tracker hfile
      have himage := mem_images_of_mem_unused (hafter.isTree hd hwebp) hunused
      rw [← stringsAt_of_readsAs hfault hread] at hvalue
      have hagain := (hafter.mem_used_iff hd hs hwebp hdry hclean hreads).mpr
        ⟨himage, file, hfile, value, hvalue, r, hr, hmatch, hnames⟩
      exact absurd hunused (not_mem_unused_of_mem_used hagain)

/-- **What a second run deletes was left behind by the first one.** -/
lemma leftBehind_of_deleted (hallowed : m.decision h' = .allowed)
    (hp : (∃ o ∈ m.successful h', o.image = p) ∨ p ∈ (m.classified h').1.unused)
    (hgone : (m.run h').2.disk.node? (Listing.place p) = none) : m.LeftBehind h p := by
  obtain ⟨himage', -, -⟩ := holdsFile_of_deleted (hafter.isTree hd hwebp) hp
  have himage := hafter.mem_images hd hwebp himage'
  obtain ⟨hskipped, hnot⟩ :=
    not_or.mp (hafter.not_deleted_before hd hs hwebp hdry hclean hallowed hp hgone)
  have hused : p ∈ (m.classified h).1.used :=
    (mem_used_or_mem_unused (by rwa [map_normal_images hd])).resolve_right hnot
  have hunused' : p ∈ (m.classified h').1.unused := by
    refine hp.resolve_left fun ⟨o, ho, heq⟩ => hskipped ?_
    rw [← heq]
    exact hafter.exists_successful hd hs hwebp hdry hclean hreads ho
  constructor
  case used => exact hused
  case kept =>
    rw [← image_converted] at hused
    obtain ⟨o, ho, rfl⟩ := List.mem_map.mp hused
    obtain ⟨old, new, perms, hnode, hencode, hsmaller⟩ :=
      exists_encoded_of_mem_converted hd (isNewExtension_of_webp hwebp) ho (hclean.converted o ho)
    refine ⟨old, new, perms, hnode, hencode, Nat.le_of_not_lt fun hlt => hskipped ?_⟩
    exact ⟨o, hsmaller.mpr hlt, rfl⟩
  case taken =>
    intro file hfile source literals hread value hvalue r hr hnames
    obtain ⟨image, converted, hmem, hmatch⟩ := hafter.exists_match?_of_unused hd hs hwebp hdry
      hclean hreads hunused' hfile hread hvalue hr hnames
    refine ⟨image, converted, fun heq => hskipped ?_, hmem, hmatch⟩
    exact heq ▸ exists_successful_of_mem_lookup hd hmem

end After

/-- **A second run settles what the first one left behind.** After a run that told of no failure, a
run with the same configuration creates and changes no file, and without deletions it removes none.
With them it removes only images that the first run kept, since their encoding was no smaller, though
each reference to them was pointed to the new image of another one. The parser is taken to read
edited sources as they were edited, and what is bound to fail to fail at any moment. -/
theorem second_run_settles (m : Migration) (h h' : Host) (hd : h.disk.IsTree)
    (hs : h.faults.IsSteady) (hwebp : m.converter.extension = "webp".toList)
    (hdry : m.config.dryRun = false) (hclean : ∃ s, (m.run h).1 = .ok s ∧ s.IsClean)
    (hreads : m.RereadsEdited h) (hafter : m.After h h') (l : Location) :
    (m.run h').2.disk.node? l = h'.disk.node? l ∨
      (m.config.deleteReplaced = true ∧ (m.run h').2.disk.node? l = none ∧
        ∃ p : Path, p.IsPlace ∧ Listing.place p = l ∧ m.LeftBehind h p) := by
  have he := isNewExtension_of_webp hwebp
  have hd' := hafter.isTree hd hwebp
  obtain ⟨s, hrun, hs'⟩ := hclean
  rcases node?_run hd' he l with hsame | ⟨hgone, hallowed, p, rfl, hp⟩
  · left
    rw [hsame]
    by_cases himages : (m.inventory h).images = []
    · have hnone : (m.inventory h').images = [] := List.eq_nil_iff_forall_not_mem.mpr fun p hp =>
        List.ne_nil_of_mem (hafter.mem_images hd hwebp hp) himages
      have hused : (m.classified h').1.used = [] := by
        rw [classified, hnone]
        rfl
      rw [(updated_of_no_used hused).2.2, disk_classified]
    · exact hafter.node?_updated hd hs hwebp hdry (ranClean_of_run hrun hs' himages) hreads l
  · right
    obtain ⟨himage, hf, -⟩ := holdsFile_of_deleted hd' hp
    have himages := List.ne_nil_of_mem (hafter.mem_images hd hwebp himage)
    refine ⟨(decision_eq_allowed hallowed).1, hgone, p, hf.isPlace, rfl, ?_⟩
    exact hafter.leftBehind_of_deleted hd hs hwebp hdry (ranClean_of_run hrun hs' himages) hreads
      hallowed hp hgone

/-! ### A project with two images of one name -/

/-- Nothing is bound to fail on machines that are given by their trees. -/
lemma After.of_run_ofDisk {d d' : Disk} (hrun : (m.run (.ofDisk d)).2.disk = d') :
    m.After (.ofDisk d) (.ofDisk d') := ⟨hrun.symm, rfl⟩

/-- The image beside the source. -/
def nearLogo : Path := ⟨"/repo/src/public/logo.png".toList⟩

/-- A project whose source has a reference that may be to either of two images. The one beside the
source has one byte only. -/
def ambiguousLogo : Disk :=
  .ofPaths ["/repo".toList, "/repo/public".toList, "/repo/src".toList, "/repo/src/public".toList]
    [(homeFile.text, Text.toUtf8 "const logo = '/logo.png';\n".toList),
     ((publicImage "logo.png".toList).text, ⟨#[1, 2, 3]⟩),
     (nearLogo.text, ⟨#[1]⟩)]

/-- What a run leaves of it: the larger image was converted, and the source names the new one. -/
def settledLogo : Disk :=
  .ofPaths ["/repo".toList, "/repo/public".toList, "/repo/src".toList, "/repo/src/public".toList]
    [(homeFile.text, Text.toUtf8 "const logo = '/logo.webp';\n".toList),
     (nearLogo.text, ⟨#[1]⟩),
     ((publicImage "logo.webp".toList).text, ⟨#[0]⟩)]

lemma inventory_ambiguousLogo :
    (toOneByte.scan (.ofDisk ambiguousLogo)).1 = .ok (toOneByte.inventory (.ofDisk ambiguousLogo)) ∧
      toOneByte.inventory (.ofDisk ambiguousLogo)
        = ⟨[publicImage "logo.png".toList, nearLogo], [homeFile]⟩ :=
  @inventory_of_visits toOneByte (.ofDisk ambiguousLogo) ⟨"/repo".toList⟩ _ _ (by decide +kernel)
    (by decide +kernel) (by decide +kernel) (by decide +kernel) (by decide +kernel)
    (by decide +kernel)

lemma inventory_settledLogo :
    (toOneByte.scan (.ofDisk settledLogo)).1 = .ok (toOneByte.inventory (.ofDisk settledLogo)) ∧
      toOneByte.inventory (.ofDisk settledLogo) = ⟨[nearLogo], [homeFile]⟩ :=
  @inventory_of_visits toOneByte (.ofDisk settledLogo) ⟨"/repo".toList⟩ _ _ (by decide +kernel)
    (by decide +kernel) (by decide +kernel) (by decide +kernel) (by decide +kernel)
    (by decide +kernel)

/-- The run meets no failure. -/
lemma run_ambiguousLogo :
    ambiguousLogo.IsTree ∧ (toOneByte.run (.ofDisk ambiguousLogo)).2.disk = settledLogo ∧
      ∃ s, (toOneByte.run (.ofDisk ambiguousLogo)).1 = .ok s ∧ s.IsClean := by
  obtain ⟨hscan, hinventory⟩ := inventory_ambiguousLogo
  rw [run_of_scan hscan, found, hinventory]
  refine ⟨by decide +kernel, by decide +kernel, _, rfl, ?_⟩
  constructor <;> decide +kernel

/-- The source is read again with the new name in its string. -/
lemma rereadsEdited_ambiguousLogo : toOneByte.RereadsEdited (.ofDisk ambiguousLogo) := by
  obtain ⟨-, hinventory⟩ := inventory_ambiguousLogo
  have hread : ambiguousLogo.ReadsAs toOneByte.parser homeFile
      "const logo = '/logo.png';\n".toList [.string ⟨13, 24⟩ "/logo.png".toList true] :=
    ⟨by decide +kernel, by decide +kernel⟩
  have hagain : toOneByte.parser.literals? homeFile
        ((toOneByte.plan (.ofDisk ambiguousLogo) homeFile "const logo = '/logo.png';\n".toList
          [.string ⟨13, 24⟩ "/logo.png".toList true]).edited "const logo = '/logo.png';\n".toList)
        = some [.string ⟨13, 25⟩ "/logo.webp".toList true] ∧
      Edit.applyAll? "/logo.png".toList
        (valueEdits (toOneByte.lookup (.ofDisk ambiguousLogo))
          ⟨toOneByte.project (.ofDisk ambiguousLogo), homeFile⟩ "/logo.png".toList)
        = some "/logo.webp".toList := by
    rw [plan, lookup, successful, converted, converting, identified, classified, found, hinventory]
    decide +kernel
  exact rereadsEdited_of_one_source (by rw [hinventory]) hread hagain.1
    (.cons (.string hagain.2) .nil)

lemma removed_nearLogo :
    Removed settledLogo (toOneByte.run (.ofDisk settledLogo)).2.disk nearLogo := by
  obtain ⟨hscan, hinventory⟩ := inventory_settledLogo
  rw [run_of_scan hscan, found, hinventory]
  decide +kernel

/-- **A second run deletes an image that the first one kept.** Both images counted as used for the
one reference; the larger one was converted, and the reference pointed to its new image. -/
theorem second_run_deletes :
    let m := toOneByte
    let h := Host.ofDisk ambiguousLogo
    let h' := Host.ofDisk (m.run h).2.disk
    h.disk.IsTree ∧ h.faults.IsSteady ∧ m.converter.extension = "webp".toList ∧
      m.config.dryRun = false ∧ (∃ s, (m.run h).1 = .ok s ∧ s.IsClean) ∧ m.RereadsEdited h ∧
      m.After h h' ∧ Removed h'.disk (m.run h').2.disk nearLogo := by
  intro m h h'
  obtain ⟨htree, hdisk, hclean⟩ := run_ambiguousLogo
  refine ⟨htree, fun _ _ _ _ => rfl, rfl, rfl, hclean, rereadsEdited_ambiguousLogo,
    ⟨rfl, rfl⟩, ?_⟩
  simp only [h', m, h, hdisk]
  exact removed_nearLogo

/-- That image was left behind by the first run. -/
theorem second_run_settles_near_logo :
    let m := toOneByte
    let h := Host.ofDisk ambiguousLogo
    let h' := Host.ofDisk settledLogo
    h.disk.IsTree ∧ h.faults.IsSteady ∧ m.converter.extension = "webp".toList ∧
      m.config.dryRun = false ∧ (∃ s, (m.run h).1 = .ok s ∧ s.IsClean) ∧ m.RereadsEdited h ∧
      m.After h h' ∧ m.LeftBehind h nearLogo := by
  intro m h h'
  obtain ⟨htree, hdisk, hclean⟩ := run_ambiguousLogo
  have hsteady : (Host.ofDisk ambiguousLogo).faults.IsSteady := fun _ _ _ _ => rfl
  have hafter := After.of_run_ofDisk hdisk
  refine ⟨htree, hsteady, rfl, rfl, hclean, rereadsEdited_ambiguousLogo, hafter, ?_⟩
  obtain ⟨hplace, hthere, hgone⟩ := removed_nearLogo
  rcases second_run_settles toOneByte (.ofDisk ambiguousLogo) (.ofDisk settledLogo) htree hsteady rfl
    rfl hclean rereadsEdited_ambiguousLogo hafter (Listing.place nearLogo) with
    hsame | ⟨-, -, p, hp, heq, hleft⟩
  · have hnone : settledLogo.node? (Listing.place nearLogo) = none := hsame.symm.trans hgone
    rw [hnone] at hthere
    exact absurd hthere (by simp)
  · exact hp.eq_of_place_eq hplace heq ▸ hleft

end ImageMigration.Migration
