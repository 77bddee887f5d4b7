/-
The stages of a run.

A run that can search has three ends: it finds no image, no used image, or goes on to convert and
update. The later stages do nothing to the tree in the shorter runs, so that all runs can be looked
at as one sequence of stages, whose last one deletes the originals and then the unused images.

* `Migration.inventory`, `classified`, `converted`, `updated`: what the stages give;
* `Migration.RunEnds`: **all the ways in which a run can end**;
* `Migration.Tells`, `Migration.Deletes`: what the summary says, and what the last stage does;
* `Migration.run_cases`: **a run is its stages**, seen at the tree and the summary;
* `Migration.performs_converting`, `performs_cleanUp`: what the stages around the changes of single
  files perform.
-/
import ImageMigration.Migration
import ImageMigration.Proofs.Host.Performed
import ImageMigration.Proofs.Usage.Index

namespace ImageMigration

open Disk (FilesChanged KeepsEntries)
open Host (Performs)

namespace Migration

/-! ### Stages -/

section Stages

variable (m : Migration) (h : Host)

/-- The directory of the project. -/
def project : Path := h.disk.absoluteDir m.config.targetDir

/-- What the search finds. A search that cannot start finds nothing. -/
def inventory : Inventory :=
  match (m.scan h).1 with
  | .ok inventory => inventory
  | .error _ => .empty

/-- The machine after the search. -/
def found : Host :=
  (Inventory.scan (h.report (.scanning (m.project h))) (m.project h) m.config).2.report
    (.found (m.inventory h).images.length (m.inventory h).codes.length)

/-- The images by their use. -/
def classified : Classification × Host :=
  classify m.parser (m.inventory h).codes (m.inventory h).images (m.project h) m.config (m.found h)

/-- The machine after the images were told apart. -/
def identified : Host :=
  (m.classified h).2.report
    (.identified (m.classified h).1.used.length (m.classified h).1.unused.length)

/-- The facts of a run after the images were told apart. -/
def surveyed : Summary :=
  { Summary.ofInventory (m.inventory h) with
    usedImages := (m.classified h).1.used.length, unusedImages := (m.classified h).1.unused,
    warnings := (m.classified h).1.warnings,
    trackerParseFailures := (m.classified h).1.parseFailures }

/-- The machine before the conversions. -/
def converting : Host :=
  (m.identified h).report (.converting (m.classified h).1.used.length m.converter.extension)

/-- The outcomes of the conversions. -/
def converted : List Outcome × Host :=
  convertAll m.converter (m.classified h).1.used m.config.quality m.config.dryRun (m.converting h)

/-- The outcomes that were not skipped. -/
def successful : List Outcome := (m.converted h).1.filter fun o => !o.skipped

/-- The images that sources are pointed to. -/
def lookup : Lookup := .ofOutcomes (m.successful h)

/-- The machine before the update. -/
def updating : Host :=
  (m.converted h).2.report
    (.converted (m.successful h).length (.ofBytes (Outcome.totalSaved (m.successful h))))

/-- The update of the sources. -/
def updated : UpdateResult × Host :=
  m.updateSources (m.inventory h).codes (m.successful h) (m.project h) (m.updating h)

/-- Whether files may be deleted. -/
def decision : CleanupDecision := .ofPasses m.config (m.classified h).1 (m.updated h).1

end Stages

variable {m : Migration} {h : Host}

@[simp] lemma disk_found (m : Migration) (h : Host) : (m.found h).disk = h.disk := by
  rw [found, Host.disk_report, Inventory.disk_scan, Host.disk_report]

@[simp] lemma disk_classified (m : Migration) (h : Host) : (m.classified h).2.disk = h.disk := by
  rw [classified, disk_classify, disk_found]

@[simp] lemma disk_converting (m : Migration) (h : Host) : (m.converting h).disk = h.disk := by
  rw [converting, identified, Host.disk_report, Host.disk_report, disk_classified]

/-! ### Runs -/

lemma scan_report (h : Host) (e : Event) (target : Path) (config : Config) :
    (Inventory.scan (h.report e) target config).1 = (Inventory.scan h target config).1 := by
  rw [Inventory.scan, Inventory.scan, Host.disk_report]
  split <;> rfl

/-- The summary tells of the unused images and of all failures of both passes over the sources. -/
structure Tells (m : Migration) (h : Host) (s : Summary) : Prop where
  unused : s.unusedImages = (m.classified h).1.unused
  tracker : s.trackerParseFailures = (m.classified h).1.parseFailures
  parse : s.codemodParseFailures = (m.updated h).1.parseFailures
  write : s.codemodWriteFailures = (m.updated h).1.writeFailures
  unedited : s.codemodUneditedFiles = (m.updated h).1.unedited

/-- The tree after the originals and then the unused images were deleted, as far as the decision
allows it. -/
def Deletes (m : Migration) (h : Host) (d : Disk) : Prop :=
  ∃ before : Host, before.disk = (m.updated h).2.disk ∧ before.faults = (m.updated h).2.faults ∧
    d = (deleteFiles (m.decision h) (m.classified h).1.unused
      (deleteFiles (m.decision h) ((m.successful h).map Outcome.image) before).2).2.disk

/-- The search finds what the run goes by, or cannot start and finds nothing. -/
lemma scan_cases (m : Migration) (h : Host) :
    (m.scan h).1 = .ok (m.inventory h) ∨
      ∃ failure, (m.scan h).1 = .error failure ∧ m.inventory h = .empty := by
  rw [inventory]
  cases (m.scan h).1 with
  | error failure => exact Or.inr ⟨failure, rfl, rfl⟩
  | ok inventory => exact Or.inl rfl

/-- The run searches after a line of the log, and finds the same. -/
lemma scan_eq {found : Except Failure Inventory} (hs : (m.scan h).1 = found) :
    Inventory.scan (h.report (.scanning (m.project h))) (m.project h) m.config
      = (found,
        (Inventory.scan (h.report (.scanning (m.project h))) (m.project h) m.config).2) := by
  have hscan : (Inventory.scan (h.report (.scanning (m.project h))) (m.project h) m.config).1
      = found := by
    rw [scan_report]
    exact hs
  rw [← hscan]

lemma run_of_scan (hs : (m.scan h).1 = .ok (m.inventory h)) :
    m.run h = (.ok (m.processInventory (m.project h) (m.inventory h) (m.found h)).1,
      (m.processInventory (m.project h) (m.inventory h) (m.found h)).2) := by
  rw [run]
  simp only
  rw [← project, scan_eq hs]
  rfl

/-- A search that cannot start ends the run. -/
lemma run_of_scan_error {failure : Failure} (hs : (m.scan h).1 = .error failure) :
    m.run h = (.error failure,
      (Inventory.scan (h.report (.scanning (m.project h))) (m.project h) m.config).2) := by
  rw [run]
  simp only
  rw [← project, scan_eq hs]

/-- The first end of a run: there is no image. -/
lemma run_of_no_images (hs : (m.scan h).1 = .ok (m.inventory h))
    (himages : (m.inventory h).images = []) :
    m.run h = (.ok (.ofInventory (m.inventory h)), (m.found h).report .noImages) := by
  rw [run_of_scan hs, processInventory]
  simp only [if_pos (List.isEmpty_iff.mpr himages)]

/-- The second end of a run: no image is in use. -/
lemma run_of_no_used (hs : (m.scan h).1 = .ok (m.inventory h))
    (himages : (m.inventory h).images ≠ []) (hused : (m.classified h).1.used = []) :
    m.run h = (.ok (m.finishUnused (m.classified h).1 (m.surveyed h) (m.identified h)).1,
      (m.finishUnused (m.classified h).1 (m.surveyed h) (m.identified h)).2) := by
  have hsome : ¬ (m.inventory h).images.isEmpty = true := by simpa using himages
  rw [run_of_scan hs, processInventory]
  simp only [if_neg hsome]
  rw [← classified, if_pos (List.isEmpty_iff.mpr hused)]
  rfl

/-- The third end of a run: images in use were converted. -/
lemma run_of_used (hs : (m.scan h).1 = .ok (m.inventory h))
    (hused : (m.classified h).1.used ≠ []) :
    m.run h =
      (.ok (m.cleanUp (m.classified h).1 (m.updated h).1 (m.successful h)
          (withUpdate (withConversions (m.surveyed h) (m.converted h).1) (m.updated h).1)
          ((m.updated h).2.report (.updatedFiles (m.updated h).1.updated))).1,
        (m.cleanUp (m.classified h).1 (m.updated h).1 (m.successful h)
          (withUpdate (withConversions (m.surveyed h) (m.converted h).1) (m.updated h).1)
          ((m.updated h).2.report (.updatedFiles (m.updated h).1.updated))).2) := by
  have hsome : ¬ (m.inventory h).images.isEmpty = true := by
    intro hempty
    rw [classified, List.isEmpty_iff.mp hempty] at hused
    exact hused rfl
  rw [run_of_scan hs, processInventory]
  simp only [if_neg hsome]
  rw [← classified, if_neg (by simpa using hused)]
  rfl

/-- A run ends with `after`: its search cannot start, it finds no image, it finds no image in use, or
images in use were converted. -/
inductive RunEnds (m : Migration) (h : Host) : (after : Except Failure Summary × Host) → Prop
  | unstarted (failure : Failure) (hs : (m.scan h).1 = .error failure)
      (hnone : m.inventory h = .empty) :
      RunEnds m h (.error failure,
        (Inventory.scan (h.report (.scanning (m.project h))) (m.project h) m.config).2)
  | noImages (hs : (m.scan h).1 = .ok (m.inventory h)) (himages : (m.inventory h).images = []) :
      RunEnds m h (.ok (.ofInventory (m.inventory h)), (m.found h).report .noImages)
  | noneUsed (hs : (m.scan h).1 = .ok (m.inventory h)) (himages : (m.inventory h).images ≠ [])
      (hused : (m.classified h).1.used = []) :
      RunEnds m h (.ok (m.finishUnused (m.classified h).1 (m.surveyed h) (m.identified h)).1,
        (m.finishUnused (m.classified h).1 (m.surveyed h) (m.identified h)).2)
  | finished (hs : (m.scan h).1 = .ok (m.inventory h)) (himages : (m.inventory h).images ≠ [])
      (hused : (m.classified h).1.used ≠ []) :
      RunEnds m h
        (.ok (m.cleanUp (m.classified h).1 (m.updated h).1 (m.successful h)
            (withUpdate (withConversions (m.surveyed h) (m.converted h).1) (m.updated h).1)
            ((m.updated h).2.report (.updatedFiles (m.updated h).1.updated))).1,
          (m.cleanUp (m.classified h).1 (m.updated h).1 (m.successful h)
            (withUpdate (withConversions (m.surveyed h) (m.converted h).1) (m.updated h).1)
            ((m.updated h).2.report (.updatedFiles (m.updated h).1.updated))).2)

/-- **A run ends in one of these ways.** -/
lemma runEnds (m : Migration) (h : Host) : RunEnds m h (m.run h) := by
  rcases scan_cases m h with hs | ⟨failure, hs, hnone⟩
  · by_cases himages : (m.inventory h).images = []
    · rw [run_of_no_images hs himages]
      exact .noImages hs himages
    by_cases hused : (m.classified h).1.used = []
    · rw [run_of_no_used hs himages hused]
      exact .noneUsed hs himages hused
    · rw [run_of_used hs hused]
      exact .finished hs himages hused
  · rw [run_of_scan_error hs]
    exact .unstarted failure hs hnone

lemma converted_of_no_used (hused : (m.classified h).1.used = []) :
    m.converted h = ([], m.converting h) := by
  rw [converted, hused]
  rfl

/-- Without used images nothing is converted or updated. -/
lemma updated_of_no_used (hused : (m.classified h).1.used = []) :
    m.successful h = [] ∧ (m.updated h).1 = .empty ∧
      (m.updated h).2.disk = (m.classified h).2.disk := by
  have hconverted := converted_of_no_used hused
  have hsuccessful : m.successful h = [] := by
    rw [successful, hconverted]
    rfl
  refine ⟨hsuccessful, ?_⟩
  rw [updated, updateSources, hsuccessful, updating, hconverted]
  exact ⟨rfl, rfl⟩

lemma faults_updated_of_no_used (hused : (m.classified h).1.used = []) :
    (m.updated h).2.faults = (m.identified h).faults := by
  rw [updated, updateSources, (updated_of_no_used hused).1, updating, converted_of_no_used hused]
  rfl

lemma finishUnused_spec (hused : (m.classified h).1.used = []) (s : Summary) :
    m.Deletes h (m.finishUnused (m.classified h).1 s (m.identified h)).2.disk := by
  obtain ⟨hsuccessful, hresult, hdisk⟩ := updated_of_no_used hused
  refine ⟨((m.identified h).report .noneUsed).reportAll (m.decision h).events, hdisk.symm,
    (faults_updated_of_no_used hused).symm, ?_⟩
  rw [hsuccessful, List.map_nil, deleteFiles_nil, decision, hresult]
  rfl

lemma cleanUp_spec (s : Summary) :
    m.Deletes h (m.cleanUp (m.classified h).1 (m.updated h).1 (m.successful h) s
      ((m.updated h).2.report (.updatedFiles (m.updated h).1.updated))).2.disk := by
  refine ⟨((m.updated h).2.report (.updatedFiles (m.updated h).1.updated)).reportAll
    (m.decision h).events, rfl, rfl, ?_⟩
  have hdecision :
      CleanupDecision.ofPasses m.config (m.classified h).1 (m.updated h).1 = m.decision h := rfl
  rw [cleanUp]
  simp only [decideCleanup, hdecision]
  by_cases hallowed : m.decision h = .allowed
  · rw [if_pos hallowed]
    rfl
  · rw [if_neg hallowed, deleteFiles_of_not_allowed hallowed, deleteFiles_of_not_allowed hallowed]
    split <;> rfl

/-- Without images there is nothing to delete. -/
lemma deletes_of_no_images (himages : (m.inventory h).images = []) : m.Deletes h h.disk := by
  have hclassified : (m.classified h).1.used = [] ∧ (m.classified h).1.unused = [] := by
    rw [classified, himages]
    exact ⟨rfl, rfl⟩
  obtain ⟨hsuccessful, -, hdisk⟩ := updated_of_no_used hclassified.1
  refine ⟨(m.updated h).2, rfl, rfl, ?_⟩
  rw [hsuccessful, hclassified.2, List.map_nil, deleteFiles_nil, deleteFiles_nil, hdisk,
    disk_classified]

/-- **A run is its stages.** Its summary tells of their failures, unless it found no image. -/
lemma run_cases (m : Migration) (h : Host) :
    m.Deletes h (m.run h).2.disk ∧
      ((m.inventory h).images = [] ∨ ∃ s, (m.run h).1 = .ok s ∧ m.Tells h s) := by
  have hends := runEnds m h
  generalize m.run h = after at hends ⊢
  cases hends with
  | unstarted failure hs hnone =>
      have himages : (m.inventory h).images = [] := by
        rw [hnone]
        rfl
      rw [Inventory.disk_scan, Host.disk_report]
      exact ⟨deletes_of_no_images himages, Or.inl himages⟩
  | noImages hs himages =>
      rw [Host.disk_report, disk_found]
      exact ⟨deletes_of_no_images himages, Or.inl himages⟩
  | noneUsed hs himages hused =>
      obtain ⟨-, hresult, -⟩ := updated_of_no_used hused
      refine ⟨finishUnused_spec hused (m.surveyed h), Or.inr ⟨_, rfl, rfl, rfl, ?_, ?_, ?_⟩⟩ <;>
        rw [hresult] <;> rfl
  | finished =>
      refine ⟨cleanUp_spec _, Or.inr ⟨_, rfl, ?_, ?_, ?_, ?_, ?_⟩⟩
      all_goals
        rw [cleanUp]
        simp only
        split <;> rfl

/-! ### What the stages perform -/

lemma performs_scan (h : Host) (target : Path) (config : Config) :
    h.Performs [] (Inventory.scan h target config).2 := by
  rw [Inventory.scan]
  split
  · exact .refl
  · refine Performs.reportAll .refl fun e he => ?_
    rw [List.mem_append, or_self] at he
    obtain ⟨visit, -, hvisit⟩ := List.mem_filterMap.mp he
    cases visit with
    | file path => exact absurd hvisit (by simp [Visit.event?])
    | unlistable dir error =>
        rw [Visit.event?, Option.some.injEq] at hvisit
        rw [← hvisit]
        rfl

/-- The search changes nothing. -/
lemma performs_found (m : Migration) (h : Host) : h.Performs [] (m.found h) := by
  have hscanning : h.Performs [] (h.report (.scanning (m.project h))) := .report .refl rfl
  exact ((performs_scan _ _ _).after hscanning).report rfl

lemma performs_identified (m : Migration) (h : Host) : h.Performs [] (m.identified h) :=
  ((performs_classify _ _ _ _ _ _).after (m.performs_found h)).report rfl

/-- Nothing changes before the conversions. -/
lemma performs_converting (m : Migration) (h : Host) : h.Performs [] (m.converting h) :=
  (m.performs_identified h).report rfl

/-- The last stage deletes some of its files. -/
lemma performs_cleanUp (m : Migration) (c : Classification) (r : UpdateResult)
    (successful : List Outcome) (s : Summary) (h : Host) :
    ∃ gone : List Path, gone.Sublist (successful.map Outcome.image ++ c.unused) ∧
      (CleanupDecision.ofPasses m.config c r ≠ .allowed → gone = []) ∧
      h.Performs (gone.map .delete) (m.cleanUp c r successful s h).2 := by
  rw [cleanUp, decideCleanup]
  generalize CleanupDecision.ofPasses m.config c r = decision
  have htold : h.Performs [] (h.reportAll decision.events) := by
    refine Performs.reportAll .refl fun e he => ?_
    cases decision with
    | blocked => rw [List.mem_singleton.mp he]; rfl
    | _ => exact absurd he (by simp [CleanupDecision.events])
  simp only
  by_cases hallowed : decision = .allowed
  · rw [if_pos hallowed]
    obtain ⟨originals, horiginals, -, hfirst⟩ := performs_deleteFiles (h.reportAll decision.events)
      decision (successful.map Outcome.image)
    obtain ⟨others, hothers, -, hsecond⟩ := performs_deleteFiles
      (deleteFiles decision (successful.map Outcome.image) (h.reportAll decision.events)).2
      decision c.unused
    refine ⟨originals ++ others, horiginals.append hothers, fun hno => absurd hallowed hno, ?_⟩
    rw [List.map_append]
    exact ((hfirst.trans hsecond).after htold).report rfl
  · rw [if_neg hallowed]
    refine ⟨[], List.nil_sublist _, fun _ => rfl, ?_⟩
    rw [List.map_nil]
    by_cases hskipped : 0 < s.parseFailureCount
    · simpa only [if_pos hskipped] using htold.report rfl
    · simpa only [if_neg hskipped] using htold

/-- So does the end of a run that found no image in use. -/
lemma performs_finishUnused (m : Migration) (c : Classification) (s : Summary) (h : Host) :
    ∃ gone : List Path, gone.Sublist c.unused ∧
      (CleanupDecision.ofPasses m.config c .empty ≠ .allowed → gone = []) ∧
      h.Performs (gone.map .delete) (m.finishUnused c s h).2 := by
  rw [finishUnused, decideCleanup]
  generalize CleanupDecision.ofPasses m.config c .empty = decision
  have htold : h.Performs [] ((h.report .noneUsed).reportAll decision.events) := by
    refine Performs.reportAll (.report .refl rfl) fun e he => ?_
    cases decision with
    | blocked => rw [List.mem_singleton.mp he]; rfl
    | _ => exact absurd he (by simp [CleanupDecision.events])
  obtain ⟨gone, hsublist, hno, hdeletes⟩ :=
    performs_deleteFiles ((h.report .noneUsed).reportAll decision.events) decision c.unused
  exact ⟨gone, hsublist, hno, hdeletes.after htold⟩

end Migration

end ImageMigration
