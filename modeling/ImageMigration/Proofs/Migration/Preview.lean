/-
Dry runs.

A dry run goes through all stages of a run, but writes and deletes nothing. What a run writes lies
apart from all that it reads later: new images have an extension of their own, and a source is
written after it was read, and not read again. So a dry run finds, reads and decides the same as a
run in earnest, and its summary tells what that run would do.

* `Host.Mirrors`: the machines of a dry run and of a run in earnest, side by side;
* `Host.Mirrors.convertAmong_eq`, `Host.Mirrors.updateFile_eq`: **one image and one source**;
  `Host.Mirrors.convertEach_eq`, `Host.Mirrors.updateAll_eq`: all of them;
* `disk_convertEach_dry`, `disk_foldl_updateFile_dry`: a dry run leaves the tree;
* `Migration.told`, `Migration.beforeCleanup_run`: the summary of a run, from its stages;
* `Migration.dry_run_previews`: a dry run tells what the run in earnest would do.
-/
import ImageMigration.Proofs.Disk.Change
import ImageMigration.Proofs.Migration.FailedWrites
import ImageMigration.Proofs.Migration.NoLoss

namespace ImageMigration

open Disk (FilesChanged)

/-- The machine of a dry run, and that of a run in earnest beside it, which has changed files at
some places. The same is bound to fail on both, at any moment. -/
structure Host.Mirrors (places : Location → Prop) (h h' : Host) : Prop where
  tree : h.disk.IsTree
  steady : h.faults.IsSteady
  faults : h'.faults = h.faults
  changed : FilesChanged places h.disk h'.disk

namespace Host.Mirrors

variable {places places' : Location → Prop} {h h' after after' : Host} {p : Path}

lemma refl (hd : h.disk.IsTree) (hs : h.faults.IsSteady) : h.Mirrors places h :=
  ⟨hd, hs, rfl, FilesChanged.refl _ _⟩

lemma mono (hm : h.Mirrors places h') (hsub : ∀ l, places l → places' l) :
    h.Mirrors places' h' :=
  { hm with changed := hm.changed.mono hsub }

/-- Both machines after something was done that left the tree of the dry run. -/
lemma next (hm : h.Mirrors places h') (hdry : after.disk = h.disk) (hp : h.Precedes after)
    (hp' : h'.Precedes after') (hchanged : FilesChanged places h'.disk after'.disk) :
    after.Mirrors places after' where
  tree := hdry ▸ hm.tree
  steady := hp.faults ▸ hm.steady
  faults := by rw [hp.faults, hp'.faults, hm.faults]
  changed := by
    rw [hdry]
    exact hm.changed.trans hchanged

lemma report (hm : h.Mirrors places h') (e e' : Event) :
    (h.report e).Mirrors places (h'.report e') :=
  hm.next rfl (precedes_report h e) (precedes_report h' e') (FilesChanged.refl _ _)

/-- A file that did not change is found on both machines. -/
lemma find?_eq (hm : h.Mirrors places h') (hf : h.disk.HoldsFile p)
    (hout : ¬ places (Listing.place p)) : h'.disk.find? true p = h.disk.find? true p := by
  rw [← hf.isPlace.2]
  exact Disk.find?_congr hm.tree.hasNoLinks (hm.changed.hasNoLinks hm.tree.hasNoLinks)
    hf.isPlace.1 (hf.node?_take_eq hm.tree hm.changed hout)

end Host.Mirrors

/-! ### The tree of a dry run -/

lemma disk_convertEach_dry (c : Converter) (all : List Path) (quality : Nat) (images : List Path)
    (h : Host) : (convertEach c all quality true images h).2.disk = h.disk := by
  induction images generalizing h with
  | nil => rfl
  | cons image images ih =>
      rw [convertEach]
      exact (ih _).trans (disk_convertAmong_of_skipped (Or.inr rfl))

lemma disk_carryOut_dry (project file : Path) (source : Text) (plan : Plan) (result : UpdateResult)
    (h : Host) : (carryOut project file source plan true result h).2.disk = h.disk := by
  obtain ⟨-, hdisk, -⟩ := noteUnedited_spec project file plan result h
  have hends := carryOutEnds project file source plan true result h
  generalize noteUnedited project file plan result h = noted at hdisk hends
  generalize carryOut project file source plan true result h = after at hends ⊢
  cases hends with
  | untouched => exact hdisk
  | previewed => exact hdisk
  | written hedits hwet => exact absurd hwet (by simp)

lemma disk_updateFile_dry (parser : ParserOf) (lookup : Lookup) (project : Path)
    (state : UpdateResult × Host) (file : Path) :
    (updateFile parser lookup project true state file).2.disk = state.2.disk := by
  have hends := updateEnds parser lookup project true state.1 state.2 file
  generalize updateFile parser lookup project true state file = after at hends ⊢
  cases hends with
  | unread => rfl
  | unparsed => rfl
  | planned => exact (disk_carryOut_dry _ _ _ _ _ _).trans (Host.disk_reportAll _ _)

lemma disk_foldl_updateFile_dry (parser : ParserOf) (lookup : Lookup) (project : Path)
    (codes : List Path) (state : UpdateResult × Host) :
    (codes.foldl (updateFile parser lookup project true) state).2.disk = state.2.disk := by
  induction codes generalizing state with
  | nil => rfl
  | cons file codes ih =>
      rw [List.foldl_cons, ih]
      exact disk_updateFile_dry parser lookup project state file

/-! ### Images -/

section Images

variable {c : Converter} {all images : List Path} {image target : Path} {quality oldSize : Nat}
  {encoded : Bytes} {places : Location → Prop} {h h' : Host}

/-- What is stored without a failure would be stored. -/
lemma store_eq_dry
    (hno : (store image target oldSize encoded false h').2.failedWrites = h'.failedWrites) :
    (store image target oldSize encoded false h').1
      = (store image target oldSize encoded true h).1 := by
  have hends := storeEnds image target oldSize encoded false h'
  generalize store image target oldSize encoded false h' = result at hends hno ⊢
  rw [store_eq]
  cases hends with
  | kept hsize => simp only [if_pos hsize]
  | previewed hsize hdry => exact absurd hdry (by simp)
  | unwritable =>
      rw [Host.failedWrites_report] at hno
      exact absurd hno (Nat.succ_ne_self _)
  | written disk hsize => simp only [if_neg (Nat.not_le.mpr hsize), if_true]

/-- **An image that is as the dry run has it is converted as the dry run tells.** -/
lemma Host.Mirrors.convertAmong_eq (hm : h.Mirrors places h') (hf : h.disk.HoldsFile image)
    (hout : ¬ places (Listing.place image))
    (hno : (convertAmong c all quality false image h').2.failedWrites = h'.failedWrites) :
    (convertAmong c all quality false image h').1
      = (convertAmong c all quality true image h).1 := by
  cases hfree : c.collides all image with
  | true => rw [convertAmong, convertAmong, if_pos hfree, if_pos hfree]
  | false =>
      have hfind := hm.find?_eq hf hout
      have hstat : h'.answer .stat image (·.size? image) = h.answer .stat image (·.size? image) :=
        Host.answer_eq hm.steady hm.faults (Disk.size?_eq_of_find? hfind)
      have hrun : (c.run image quality h'.tick).1 = (c.run image quality h.tick).1 :=
        Converter.run_congr hm.steady hm.faults (Disk.read?_eq_of_find? hfind)
      rw [convertAmong_of_free hfree, hstat, hrun] at hno ⊢
      rw [convertAmong_of_free hfree]
      cases hsize : h.answer .stat image (·.size? image) with
      | error e => rfl
      | ok size =>
          simp only [hsize] at hno ⊢
          cases hencode : (c.run image quality h.tick).1 with
          | error failure => rfl
          | ok bytes =>
              simp only [hencode] at hno ⊢
              exact store_eq_dry hno

/-- Images are converted as the dry run tells. -/
lemma Host.Mirrors.convertEach_eq (hm : h.Mirrors (c.IsTarget all all) h')
    (he : IsNewExtension c.extension) (hall : ∀ i ∈ all, h.disk.HoldsFile i ∧ i.isImage = true)
    (hsub : images ⊆ all)
    (hno : (convertEach c all quality false images h').2.failedWrites = h'.failedWrites) :
    (convertEach c all quality false images h').1
      = (convertEach c all quality true images h).1 := by
  induction images generalizing h h' with
  | nil => rfl
  | cons image images ih =>
      obtain ⟨hmem, hsub'⟩ := List.cons_subset.mp hsub
      obtain ⟨hf, hi⟩ := hall image hmem
      have hfirst := precedes_convertAmong c all quality false image h'
      obtain ⟨hno, hno'⟩ :=
        hfirst.failedWrites_eq (precedes_convertEach c all quality false images _) hno
      have houtcome := hm.convertAmong_eq hf (not_isTarget_place hf.isPlace (Or.inl hi)) hno
      have hdry : (convertAmong c all quality true image h).2.disk = h.disk :=
        disk_convertAmong_of_skipped (Or.inr rfl)
      have hsingle : ∀ l, c.IsTarget all [image] l → c.IsTarget all all l := by
        rintro l ⟨i, hi, hrest⟩
        rw [List.mem_singleton] at hi
        exact ⟨i, by rw [hi]; exact hmem, hrest⟩
      have hchanged := (convertAmong_spec hm.tree he hf hi hm.changed quality false).1
      have hnext := hm.next hdry (precedes_convertAmong c all quality true image h) hfirst
        (hchanged.mono hsingle)
      have hrest := ih hnext (by rwa [hdry]) hsub' hno'
      rw [convertEach, convertEach]
      simp only [houtcome, hrest]

end Images

/-! ### Sources -/

section Sources

variable {parser : ParserOf} {lookup : Lookup} {project file : Path} {codes : List Path}
  {source : Text} {plan : Plan} {result : UpdateResult} {places : Location → Prop} {h h' : Host}
  {state state' : UpdateResult × Host}

/-- A file that is written without a failure is counted. -/
lemma writeEdits_eq_dry
    (hno : (writeEdits project file source plan result h).2.failedWrites = h.failedWrites) :
    (writeEdits project file source plan result h).1
      = { result with updated := result.updated + 1 } := by
  have hreported := (h.precedes_reportAll (plan.droppingEvents source)).failedWrites
  have hends := writeEnds project file source plan result h
  generalize h.reportAll (plan.droppingEvents source) = told at hreported hends
  generalize writeEdits project file source plan result h = after at hno hends ⊢
  cases hends with
  | unwritable e =>
      simp only [Host.failedWrites_report] at hno
      have hfailed : [Event.failed .write file e.message].countP Event.isFailedWrite = 1 := rfl
      have htick : told.tick.failedWrites = told.failedWrites := rfl
      omega
  | written => rfl

/-- What is carried out without a failure would be carried out. -/
lemma carryOut_eq_dry
    (hno : (carryOut project file source plan false result h').2.failedWrites = h'.failedWrites) :
    (carryOut project file source plan false result h').1
      = (carryOut project file source plan true result h).1 := by
  have hnoted : (noteUnedited project file plan result h').1
      = (noteUnedited project file plan result h).1 := by
    rw [noteUnedited, noteUnedited]
    split <;> rfl
  rw [carryOut_eq] at hno ⊢
  rw [carryOut_eq]
  simp only [Bool.false_eq_true, if_false, if_true] at hno ⊢
  by_cases hempty : plan.edits.isEmpty = true
  · rw [if_pos hempty, if_pos hempty, hnoted]
  · rw [if_neg hempty] at hno ⊢
    rw [if_neg hempty]
    have hwritten := ((precedes_noteUnedited project file plan result h').failedWrites_eq
      (precedes_writeEdits _ _ _ _ _ _) hno).2
    rw [writeEdits_eq_dry hwritten, hnoted]

/-- **A source that is as the dry run has it is updated as the dry run tells.** -/
lemma Host.Mirrors.updateFile_eq (hm : state.2.Mirrors places state'.2)
    (hsame : state'.1 = state.1) (hf : state.2.disk.HoldsFile file)
    (hout : ¬ places (Listing.place file))
    (hno : (updateFile parser lookup project false state' file).2.failedWrites
      = state'.2.failedWrites) :
    (updateFile parser lookup project false state' file).1
      = (updateFile parser lookup project true state file).1 := by
  obtain ⟨result, h⟩ := state
  obtain ⟨result', h'⟩ := state'
  obtain rfl : result' = result := hsame
  have htext : h'.disk.readText? file = h.disk.readText? file := by
    rw [Disk.readText?, Disk.readText?, Disk.read?_eq_of_find? (hm.find?_eq hf hout)]
  have hread : h'.answer .read file (·.readText? file) = h.answer .read file (·.readText? file) :=
    Host.answer_eq hm.steady hm.faults htext
  rw [updateFile, Host.look_eq, hread] at hno ⊢
  rw [updateFile, Host.look_eq]
  cases hsource : h.answer .read file (·.readText? file) with
  | error e => rfl
  | ok source =>
      simp only [hsource] at hno ⊢
      cases hparse : parser.literals? file source with
      | none => rfl
      | some literals =>
          simp only [hparse] at hno ⊢
          have hreported := h'.precedes_tick.trans (Host.precedes_reportAll _
            (literals.flatMap (planEvents lookup ⟨project, file⟩ source)))
          exact carryOut_eq_dry
            (hreported.failedWrites_eq (precedes_carryOut _ _ _ _ _ _ _) hno).2

/-- Sources are updated as the dry run tells. -/
lemma Host.Mirrors.foldl_updateFile_eq (hm : state.2.Mirrors places state'.2)
    (hsame : state'.1 = state.1)
    (hcodes : ∀ file ∈ codes, state.2.disk.HoldsFile file ∧ ¬ places (Listing.place file))
    (hnodup : codes.Nodup)
    (hno : (codes.foldl (updateFile parser lookup project false) state').2.failedWrites
      = state'.2.failedWrites) :
    (codes.foldl (updateFile parser lookup project false) state').1
      = (codes.foldl (updateFile parser lookup project true) state).1 := by
  induction codes generalizing state state' places with
  | nil => exact hsame
  | cons file codes ih =>
      obtain ⟨hnot, hnodup'⟩ := List.nodup_cons.mp hnodup
      obtain ⟨hf, hout⟩ := hcodes file (by simp)
      have hfirst := precedes_updateFile parser lookup project false state' file
      obtain ⟨hno, hno'⟩ := hfirst.failedWrites_eq
        (Host.precedes_foldl (precedes_updateFile parser lookup project false) codes _) hno
      have hdry := disk_updateFile_dry parser lookup project state file
      have hchanged : FilesChanged (· = Listing.place file) state'.2.disk
          (updateFile parser lookup project false state' file).2.disk :=
        (updateFile_spec hm.tree hf (hm.changed.mono fun l hl heq => hout (heq ▸ hl)) parser lookup
          project false state'.1).1
      -- the places that differ grow by the place of this file
      have hwider : state.2.Mirrors (fun l => places l ∨ l = Listing.place file) state'.2 :=
        hm.mono fun l hl => Or.inl hl
      have hnext := hwider.next hdry (precedes_updateFile parser lookup project true state file)
        hfirst (hchanged.mono fun l hl => Or.inr hl)
      refine ih hnext (hm.updateFile_eq hsame hf hout hno) (fun f hmem => ?_) hnodup' hno'
      -- no later file has the place of this one
      obtain ⟨hf', hout'⟩ := hcodes f (by simp [hmem])
      refine ⟨by rwa [hdry], fun hplace => ?_⟩
      rcases hplace with hplace | hplace
      · exact hout' hplace
      · have heq := hf'.isPlace.eq_of_place_eq hf.isPlace hplace
        exact hnot (heq ▸ hmem)

/-- So they are if there is nothing to look up. -/
lemma Host.Mirrors.updateAll_eq {outcomes : List Outcome} (hm : h.Mirrors places h')
    (hcodes : ∀ file ∈ codes, h.disk.HoldsFile file ∧ ¬ places (Listing.place file))
    (hnodup : codes.Nodup)
    (hno : (updateAll parser codes outcomes project false h').2.failedWrites = h'.failedWrites) :
    (updateAll parser codes outcomes project false h').1
      = (updateAll parser codes outcomes project true h).1 := by
  rw [updateAll] at hno ⊢
  rw [updateAll]
  by_cases hempty : (Lookup.ofOutcomes outcomes).isEmpty = true
  · rw [if_pos hempty, if_pos hempty]
  · rw [if_neg hempty] at hno ⊢
    rw [if_neg hempty]
    exact Host.Mirrors.foldl_updateFile_eq hm rfl hcodes hnodup hno

end Sources

/-! ### Runs -/

/-- The facts of a run, but for those about the deletion of files. -/
def Summary.beforeCleanup (s : Summary) : Summary :=
  { s with cleanup := .notRequested, deletedReplaced := 0, deletedUnused := 0 }

namespace Migration

/-- A run that writes and deletes nothing, or one in earnest. -/
def withDryRun (m : Migration) (dryRun : Bool) : Migration :=
  { m with config := { m.config with dryRun } }

/-- The facts of a run from its stages, but for those about the deletion of files. -/
def told (m : Migration) (h : Host) : Summary :=
  if (m.inventory h).images.isEmpty then .ofInventory (m.inventory h)
  else
    let s :=
      { Summary.ofInventory (m.inventory h) with
        usedImages := (m.classified h).1.used.length, unusedImages := (m.classified h).1.unused,
        warnings := (m.classified h).1.warnings,
        trackerParseFailures := (m.classified h).1.parseFailures }
    withUpdate (withConversions s (m.converted h).1) (m.updated h).1

section Told

variable {m : Migration} {h : Host}

lemma beforeCleanup_cleanUp (c : Classification) (r : UpdateResult) (successful : List Outcome)
    (s : Summary) (h : Host) :
    (m.cleanUp c r successful s h).1.beforeCleanup = s.beforeCleanup := by
  rw [cleanUp]
  simp only
  split <;> rfl

/-- **The summary of a run tells of its stages.** -/
lemma beforeCleanup_run (m : Migration) (h : Host) :
    (m.run h).1.map Summary.beforeCleanup = (m.scan h).1.map fun _ => m.told h := by
  have hends := runEnds m h
  generalize m.run h = after at hends ⊢
  cases hends with
  | unstarted failure hs =>
      rw [hs]
      rfl
  | noImages hs himages =>
      rw [hs, told, if_pos (List.isEmpty_iff.mpr himages)]
      rfl
  | noneUsed hs himages hused =>
      rw [hs, told, if_neg (by simpa using himages), converted_of_no_used hused,
        (updated_of_no_used hused).2.1]
      rfl
  | finished hs himages =>
      rw [hs, told, if_neg (by simpa using himages), Except.map, beforeCleanup_cleanUp]
      rfl

/-- The update of a run comes before its end, if images are in use. -/
lemma precedes_run (hused : (m.classified h).1.used ≠ []) :
    (m.updated h).2.Precedes (m.run h).2 := by
  have hends := runEnds m h
  generalize m.run h = after at hends ⊢
  cases hends with
  | unstarted failure hs hnone =>
      rw [classified, hnone] at hused
      exact absurd rfl hused
  | noImages hs himages =>
      rw [classified, himages] at hused
      exact absurd rfl hused
  | noneUsed hs himages hnone => exact absurd hnone hused
  | finished => exact (Host.precedes_report _ _).trans (precedes_cleanUp _ _ _ _ _ _)

end Told

section Preview

variable {m : Migration} {h : Host}

/-! ### A dry run and a run in earnest -/

/-- Both search in the same way. -/
lemma visitsFor_withDryRun (d : Disk) (config : Config) (dryRun : Bool) (fuel : Nat) (dir : Path)
    (depth : Nat) :
    d.visitsFor { config with dryRun } fuel dir depth = d.visitsFor config fuel dir depth := by
  induction fuel generalizing dir depth with
  | zero => rfl
  | succ fuel ih =>
      have hentry : d.visitsAt { config with dryRun } fuel dir depth
          = d.visitsAt config fuel dir depth := by
        funext entry
        simp only [Disk.visitsAt, ih]
        rfl
      rw [Disk.visitsFor_succ, Disk.visitsFor_succ, hentry]

lemma scan_withDryRun (m : Migration) (dryRun : Bool) (h : Host) (target : Path) :
    Inventory.scan h target (m.withDryRun dryRun).config = Inventory.scan h target m.config := by
  rw [Inventory.scan, Inventory.scan, Disk.visitsFrom, Disk.visitsFrom, Disk.visits, Disk.visits,
    withDryRun, visitsFor_withDryRun]

/-- Both come to the conversions in the same way. -/
lemma converting_withDryRun (m : Migration) (dryRun : Bool) (h : Host) :
    (m.withDryRun dryRun).inventory h = m.inventory h ∧
      (m.withDryRun dryRun).classified h = m.classified h ∧
      (m.withDryRun dryRun).converting h = m.converting h := by
  have hinventory : (m.withDryRun dryRun).inventory h = m.inventory h := by
    rw [inventory, inventory, scan, scan, scan_withDryRun]
    rfl
  have hfound : (m.withDryRun dryRun).found h = m.found h := by
    rw [found, found, scan_withDryRun, hinventory]
    rfl
  have hclassified : (m.withDryRun dryRun).classified h = m.classified h := by
    rw [classified, classified, hinventory, hfound]
    rfl
  refine ⟨hinventory, hclassified, ?_⟩
  rw [converting, converting, identified, identified, hclassified]
  rfl

lemma disk_converted_of_dryRun (hdry : m.config.dryRun = true) :
    (m.converted h).2.disk = h.disk := by
  rw [converted, hdry, convertAll, disk_convertEach_dry, disk_converting]

/-- A dry run leaves the tree as it is. -/
lemma disk_run_of_dryRun (hdry : m.config.dryRun = true) : (m.run h).2.disk = h.disk := by
  have hconverted : (m.converted h).2.disk = h.disk := disk_converted_of_dryRun hdry
  have hupdated : (m.updated h).2.disk = h.disk := by
    rcases updated_cases m h with ⟨-, -, hsame⟩ | hfold
    · rw [hsame, hconverted]
    · rw [hfold, hdry, disk_foldl_updateFile_dry, disk_updating, hconverted]
  have hdecision : m.decision h ≠ .allowed := by
    intro hallowed
    have hreal := (decision_eq_allowed hallowed).2.1
    rw [hdry] at hreal
    exact absurd hreal (by simp)
  obtain ⟨before, hbefore, -, hafter⟩ := (run_cases m h).1
  rw [hafter, deleteFiles_of_not_allowed hdecision, deleteFiles_of_not_allowed hdecision, hbefore,
    hupdated]

variable (hd : h.disk.IsTree) (hs : h.faults.IsSteady) (he : IsNewExtension m.converter.extension)

include hd hs he

/-- The outcomes of the conversions are those of the dry run. -/
lemma converted_withDryRun
    (hno : ((m.withDryRun false).converted h).2.failedWrites = (m.converting h).failedWrites) :
    ((m.withDryRun false).converted h).1 = ((m.withDryRun true).converted h).1 := by
  have hstart : ∀ dryRun, (m.withDryRun dryRun).converted h
      = convertEach m.converter (m.classified h).1.used m.config.quality dryRun
        (m.classified h).1.used (m.converting h) := by
    intro dryRun
    obtain ⟨-, hclassified, hconverting⟩ := converting_withDryRun m dryRun h
    rw [converted, hclassified, hconverting]
    rfl
  have hused : ∀ i ∈ (m.classified h).1.used, h.disk.HoldsFile i ∧ i.isImage = true :=
    fun i hi => holdsFile_of_mem_used hd hi
  rw [← disk_converting m h] at hd hused
  rw [hstart] at hno
  rw [hstart, hstart]
  exact (Host.Mirrors.refl hd ((precedes_converting m h).faults ▸ hs)).convertEach_eq he hused
    (List.Subset.refl _) hno

/-- After the conversions, the machines differ at the targets of images only. -/
lemma mirrors_converted :
    ((m.withDryRun true).converted h).2.Mirrors
      (m.converter.IsTarget (m.classified h).1.used (m.classified h).1.used)
      ((m.withDryRun false).converted h).2 := by
  have hdry : ((m.withDryRun true).converted h).2.disk = h.disk :=
    disk_converted_of_dryRun rfl
  have hfaults : ∀ dryRun, ((m.withDryRun dryRun).converted h).2.faults = h.faults := fun dryRun =>
    ((precedes_converting _ h).trans (precedes_converted _ h)).faults
  have hchanged := (filesChanged_converted (m := m.withDryRun false) hd he).1
  rw [(converting_withDryRun m false h).2.1, ← hdry] at hchanged
  exact ⟨hdry ▸ hd, hfaults true ▸ hs, (hfaults false).trans (hfaults true).symm, hchanged⟩

/-- The update of the sources is that of the dry run. -/
lemma updated_withDryRun
    (hconverted : ((m.withDryRun false).converted h).1 = ((m.withDryRun true).converted h).1)
    (hno : ((m.withDryRun false).updated h).2.failedWrites
      = ((m.withDryRun false).updating h).failedWrites) :
    ((m.withDryRun false).updated h).1 = ((m.withDryRun true).updated h).1 := by
  have hsuccessful : (m.withDryRun false).successful h = (m.withDryRun true).successful h := by
    rw [successful, successful, hconverted]
  have hcodes : ∀ file ∈ (m.inventory h).codes,
      ((m.withDryRun true).converted h).2.disk.HoldsFile file ∧
        ¬ m.converter.IsTarget (m.classified h).1.used (m.classified h).1.used
          (Listing.place file) := by
    intro file hfile
    obtain ⟨hf, hcode⟩ := holdsFile_of_mem_codes hd hfile
    rw [disk_converted_of_dryRun rfl]
    exact ⟨hf, not_isTarget_place hf.isPlace (Or.inr hcode)⟩
  rw [updated, updateSources, (converting_withDryRun m false h).1, hsuccessful] at hno ⊢
  rw [updated, updateSources, (converting_withDryRun m true h).1]
  by_cases hnone : ((m.withDryRun true).successful h).isEmpty = true
  · rw [if_pos hnone, if_pos hnone]
  · rw [if_neg hnone] at hno ⊢
    rw [if_neg hnone]
    exact (((mirrors_converted hd hs he).report _ _).report _ _).updateAll_eq hcodes
      (nodup_codes hd) (hno.trans (Host.failedWrites_report _ .updatingReferences).symm)

/-- Without failed writes, all that a run tells is what its dry run tells. -/
lemma told_withDryRun (hno : ((m.withDryRun false).run h).2.failedWrites = h.failedWrites) :
    (m.withDryRun true).told h = (m.withDryRun false).told h := by
  obtain ⟨hinventory, hclassified, -⟩ := converting_withDryRun m true h
  obtain ⟨hinventory', hclassified', hconverting'⟩ := converting_withDryRun m false h
  have hstages : ((m.withDryRun false).converted h).1 = ((m.withDryRun true).converted h).1 ∧
      ((m.withDryRun false).updated h).1 = ((m.withDryRun true).updated h).1 := by
    by_cases hused : ((m.withDryRun false).classified h).1.used = []
    · -- nothing is converted in either run
      have hused' : ((m.withDryRun true).classified h).1.used = [] := by
        rw [hclassified, ← hclassified', hused]
      exact ⟨by rw [converted_of_no_used hused, converted_of_no_used hused'],
        (updated_of_no_used hused).2.1.trans (updated_of_no_used hused').2.1.symm⟩
    · -- no part of the run in earnest has a failed write
      have hconverting := (precedes_converting (m.withDryRun false) h).failedWrites
      have hconverted := (precedes_converted (m.withDryRun false) h).failedWrites
      have hupdating := (precedes_updating (m.withDryRun false) h).failedWrites
      have hupdated := (precedes_updated (m.withDryRun false) h).failedWrites
      have hrun := (precedes_run hused).failedWrites
      rw [hconverting'] at hconverting hconverted
      have houtcomes := converted_withDryRun hd hs he (by omega)
      exact ⟨houtcomes, updated_withDryRun hd hs he houtcomes (by omega)⟩
  rw [told, told, hinventory, hinventory', hclassified, hclassified', hstages.1, hstages.2]

end Preview

/-- **A dry run tells what the run in earnest would do.** Let all writes of a run succeed, from a
tree without links, with new images that have the extension `webp`; what else fails does not depend
on the moment. Then the dry run gives the same summary, but for what concerns the deletion of files;
and any dry run leaves the tree as it is. -/
theorem dry_run_previews (m : Migration) (h : Host) (hd : h.disk.IsTree)
    (hs : h.faults.IsSteady) (hwebp : m.converter.extension = "webp".toList) :
    ((m.withDryRun true).run h).2.disk = h.disk ∧
      (((m.withDryRun false).run h).2.failedWrites = h.failedWrites →
        ((m.withDryRun true).run h).1.map Summary.beforeCleanup
          = ((m.withDryRun false).run h).1.map Summary.beforeCleanup) := by
  have he : IsNewExtension m.converter.extension := by
    rw [hwebp]
    exact isNewExtension_webp
  refine ⟨disk_run_of_dryRun rfl, fun hno => ?_⟩
  have hscan : ((m.withDryRun true).scan h).1 = ((m.withDryRun false).scan h).1 := by
    rw [scan, scan, scan_withDryRun, scan_withDryRun]
    rfl
  rw [beforeCleanup_run, beforeCleanup_run, hscan, told_withDryRun hd hs he hno]

/-- The dry run of a project with a used image tells that it would be converted, as happens in
earnest. -/
theorem dry_run_previews_of_two :
    let m := toOneByte
    let h := Host.ofDisk twoImages
    h.disk.IsTree ∧ h.faults.IsSteady ∧ m.converter.extension = "webp".toList ∧
      ((m.withDryRun false).run h).2.failedWrites = h.failedWrites ∧
      ((m.withDryRun true).run h).2.disk = h.disk ∧
      ((m.withDryRun false).run h).2.disk.node?
        (Listing.place (publicImage "logo.webp".toList)) ≠ none ∧
      ((m.withDryRun true).run h).1.map (fun s => (s.converted, s.bytesSaved, s.updatedFiles))
        = .ok (1, 2, 1) := by
  intro m h
  obtain ⟨hscan, hinventory⟩ := inventory_twoImages
  have hearnest : m.withDryRun false = m := rfl
  have htree : h.disk.IsTree := by decide +kernel
  have hsteady : h.faults.IsSteady := fun _ _ _ _ => rfl
  have hrun : (m.run h).2.failedWrites = h.failedWrites ∧
      (m.run h).2.disk.node? (Listing.place (publicImage "logo.webp".toList)) ≠ none ∧
      (m.run h).1.map (fun s => (s.converted, s.bytesSaved, s.updatedFiles)) = .ok (1, 2, 1) := by
    rw [run_of_scan hscan, found, hinventory]
    decide +kernel
  obtain ⟨hdisk, hsame⟩ := dry_run_previews m h htree hsteady rfl
  rw [hearnest] at hsame ⊢
  refine ⟨htree, hsteady, rfl, hrun.1, hdisk, hrun.2.1, ?_⟩
  have htold : ∀ s : Except Failure Summary,
      (s.map Summary.beforeCleanup).map (fun s => (s.converted, s.bytesSaved, s.updatedFiles))
        = s.map fun s => (s.converted, s.bytesSaved, s.updatedFiles) := by
    rintro (e | s) <;> rfl
  rw [← htold, hsame hrun.1, htold]
  exact hrun.2.2

end Migration

end ImageMigration
