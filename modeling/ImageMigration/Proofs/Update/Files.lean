/-
Updating the sources, seen at the tree.

Each file is read and written on its own, and no file is visited twice. So every file ends up with
the edits of its plan, planned for the text that the run found; or it stays, and the result accounts
for it.

* `UpdateResult.Grows`: failures are never taken back;
* `updateFile_cases`: one file;
* `UpdateResult.Accounts`, `foldl_updateFile_spec`: **what becomes of every file.**
-/
import ImageMigration.Proofs.Edit.Apply
import ImageMigration.Proofs.Inventory.Visits
import ImageMigration.Proofs.Update.Answers
import ImageMigration.Proofs.Usage.Index

namespace ImageMigration

open Disk (FilesChanged KeepsEntries)

/-! ### Results -/

namespace UpdateResult

/-- The second result has all failures of the first. -/
structure Grows (result result' : UpdateResult) : Prop where
  parseFailures : result.parseFailures ⊆ result'.parseFailures
  writeFailures : result.writeFailures ⊆ result'.writeFailures
  unedited : result.unedited ⊆ result'.unedited

lemma Grows.refl (result : UpdateResult) : Grows result result :=
  ⟨List.Subset.refl _, List.Subset.refl _, List.Subset.refl _⟩

lemma Grows.trans {result result' result'' : UpdateResult} (h : Grows result result')
    (h' : Grows result' result'') : Grows result result'' :=
  ⟨List.Subset.trans h.parseFailures h'.parseFailures,
    List.Subset.trans h.writeFailures h'.writeFailures, List.Subset.trans h.unedited h'.unedited⟩

end UpdateResult

/-! ### One file -/

/-- Writing the edits of a file does so, or reports the file. -/
lemma writeEdits_cases (project file : Path) (source : Text) (plan : Plan) (result : UpdateResult)
    (h : Host) :
    result.Grows (writeEdits project file source plan result h).1 ∧
      (((writeEdits project file source plan result h).2.disk = h.disk ∧
          file.relativeTo project
            ∈ (writeEdits project file source plan result h).1.writeFailures) ∨
        h.disk.write? file (plan.edited source).toUtf8
          = .ok (writeEdits project file source plan result h).2.disk) := by
  have hends := writeEnds project file source plan result h
  have htold := h.disk_reportAll (plan.droppingEvents source)
  generalize h.reportAll (plan.droppingEvents source) = told at hends htold
  generalize writeEdits project file source plan result h = after at hends ⊢
  rw [← htold]
  cases hends with
  | unwritable =>
      refine ⟨⟨List.Subset.refl _, List.subset_append_left _ _, List.Subset.refl _⟩, Or.inl ?_⟩
      exact ⟨rfl, by simp⟩
  | written disk hwrite =>
      exact ⟨⟨List.Subset.refl _, List.Subset.refl _, List.Subset.refl _⟩,
        Or.inr (Host.eq_ok_of_answer hwrite)⟩

lemma noteUnedited_spec (project file : Path) (plan : Plan) (result : UpdateResult) (h : Host) :
    result.Grows (noteUnedited project file plan result h).1 ∧
      (noteUnedited project file plan result h).2.disk = h.disk ∧
      (0 < plan.unedited →
        file.relativeTo project ∈ (noteUnedited project file plan result h).1.unedited) := by
  rw [noteUnedited]
  split
  · refine ⟨⟨List.Subset.refl _, List.Subset.refl _, List.subset_append_left _ _⟩, rfl, ?_⟩
    exact fun _ => by simp
  · next hno => exact ⟨UpdateResult.Grows.refl _, rfl, fun hpos => absurd hpos hno⟩

/-- Carrying out a plan writes its edits, if there are any, or reports the file. References that
stay as they are get the file reported in any case. -/
lemma carryOut_cases (project file : Path) (source : Text) (plan : Plan) (dryRun : Bool)
    (result : UpdateResult) (h : Host) :
    result.Grows (carryOut project file source plan dryRun result h).1 ∧
      (0 < plan.unedited →
        file.relativeTo project
          ∈ (carryOut project file source plan dryRun result h).1.unedited) ∧
      (((carryOut project file source plan dryRun result h).2.disk = h.disk ∧
          (plan.edits = [] ∨ dryRun = true ∨
            file.relativeTo project
              ∈ (carryOut project file source plan dryRun result h).1.writeFailures)) ∨
        h.disk.write? file (plan.edited source).toUtf8
          = .ok (carryOut project file source plan dryRun result h).2.disk) := by
  obtain ⟨hgrows, hdisk, hunedited⟩ := noteUnedited_spec project file plan result h
  have hends := carryOutEnds project file source plan dryRun result h
  generalize carryOut project file source plan dryRun result h = after at hends ⊢
  generalize noteUnedited project file plan result h = noted at hends hgrows hdisk hunedited
  cases hends with
  | untouched hedits => exact ⟨hgrows, hunedited, Or.inl ⟨hdisk, Or.inl hedits⟩⟩
  | previewed hedits hdry =>
      have hcount : noted.1.Grows { noted.1 with updated := noted.1.updated + 1 } :=
        ⟨List.Subset.refl _, List.Subset.refl _, List.Subset.refl _⟩
      exact ⟨hgrows.trans hcount, hunedited, Or.inl ⟨hdisk, Or.inr (Or.inl hdry)⟩⟩
  | written hedits hwet =>
      obtain ⟨hgrows', hwrite⟩ := writeEdits_cases project file source plan noted.1 noted.2
      rw [hdisk] at hwrite
      refine ⟨hgrows.trans hgrows', fun hpos => hgrows'.unedited (hunedited hpos), ?_⟩
      exact hwrite.imp (fun ⟨hsame, hfail⟩ => ⟨hsame, Or.inr (Or.inr hfail)⟩) id

/-- **Updating one file**: it could not be read; or its plan was made, and carried out as far as
possible. -/
lemma updateFile_cases (parser : ParserOf) (lookup : Lookup) (project : Path) (dryRun : Bool)
    (result : UpdateResult) (h : Host) (file : Path) :
    result.Grows (updateFile parser lookup project dryRun (result, h) file).1 ∧
      (((updateFile parser lookup project dryRun (result, h) file).2.disk = h.disk ∧
          file.relativeTo project
            ∈ (updateFile parser lookup project dryRun (result, h) file).1.parseFailures) ∨
        ∃ source literals, h.disk.ReadsAs parser file source literals ∧
          (0 < (Plan.ofLiterals lookup ⟨project, file⟩ source literals).unedited →
            file.relativeTo project
              ∈ (updateFile parser lookup project dryRun (result, h) file).1.unedited) ∧
          (((updateFile parser lookup project dryRun (result, h) file).2.disk = h.disk ∧
              ((Plan.ofLiterals lookup ⟨project, file⟩ source literals).edits = [] ∨
                dryRun = true ∨ file.relativeTo project
                  ∈ (updateFile parser lookup project dryRun (result, h) file).1.writeFailures)) ∨
            h.disk.write? file
                ((Plan.ofLiterals lookup ⟨project, file⟩ source literals).edited source).toUtf8
              = .ok (updateFile parser lookup project dryRun (result, h) file).2.disk)) := by
  have hfailed : result.Grows (result.addFailure (file.relativeTo project)) :=
    ⟨List.subset_append_left _ _, List.Subset.refl _, List.Subset.refl _⟩
  have hnoted : file.relativeTo project
      ∈ (result.addFailure (file.relativeTo project)).parseFailures := by
    simp [UpdateResult.addFailure]
  have hends := updateEnds parser lookup project dryRun result h file
  generalize updateFile parser lookup project dryRun (result, h) file = after at hends ⊢
  cases hends with
  | unread => exact ⟨hfailed, Or.inl ⟨rfl, hnoted⟩⟩
  | unparsed => exact ⟨hfailed, Or.inl ⟨rfl, hnoted⟩⟩
  | planned source literals hread hparse =>
      obtain ⟨hgrows, hunedited, hwrite⟩ := carryOut_cases project file source
        (Plan.ofLiterals lookup ⟨project, file⟩ source literals) dryRun result
        (h.tick.reportAll (literals.flatMap (planEvents lookup ⟨project, file⟩ source)))
      rw [Host.disk_reportAll] at hwrite
      exact ⟨hgrows, Or.inr ⟨source, literals, ⟨Host.eq_ok_of_answer hread, hparse⟩, hunedited,
        hwrite⟩⟩

/-! ### All files -/

/-- What became of a file: it stays and the result says why, or nothing was to be written; or it has
the edits of its plan. -/
inductive UpdateResult.Accounts (result : UpdateResult) (parser : ParserOf) (lookup : Lookup)
    (project : Path) (d d' : Disk) (file : Path) : Prop where
  | failed (hsame : d'.node? (Listing.place file) = d.node? (Listing.place file))
      (hnoted : file.relativeTo project ∈ result.parseFailures ∨
        file.relativeTo project ∈ result.writeFailures)
  | edited {source : Text} {literals : List Literal}
      (hread : d.ReadsAs parser file source literals)
      (hunedited : 0 < (Plan.ofLiterals lookup ⟨project, file⟩ source literals).unedited →
        file.relativeTo project ∈ result.unedited)
      (hnode : ∃ perms, d'.node? (Listing.place file) = some
        ⟨.file ((Plan.ofLiterals lookup ⟨project, file⟩ source literals).edited source).toUtf8,
          perms⟩)

section AllFiles

variable {parser : ParserOf} {lookup : Lookup} {project file : Path} {codes : List Path}
  {dryRun : Bool} {result result' : UpdateResult} {h : Host} {d d' d'' : Disk}

lemma UpdateResult.Accounts.mono (ha : result.Accounts parser lookup project d d' file)
    (hgrows : result.Grows result')
    (hsame : d''.node? (Listing.place file) = d'.node? (Listing.place file)) :
    result'.Accounts parser lookup project d d'' file := by
  cases ha with
  | failed hfile hnoted =>
      exact .failed (hsame.trans hfile)
        (hnoted.imp (fun hp => hgrows.parseFailures hp) fun hw => hgrows.writeFailures hw)
  | edited hread hunedited hnode =>
      refine .edited hread (fun hpos => hgrows.unedited (hunedited hpos)) ?_
      rwa [hsame]

/-- A plan without edits leaves the source. -/
lemma Plan.edited_of_no_edits {source : Text} {plan : Plan} (h : plan.edits = []) :
    plan.edited source = source := by
  rw [edited, h, Edit.applyAll?_nil]
  rfl

/-- One step of an update, for a file that is as the run found it. -/
lemma updateFile_spec (hd : d.IsTree) (hf : d.HoldsFile file)
    (hchanged : FilesChanged (· ≠ Listing.place file) d h.disk) (parser : ParserOf)
    (lookup : Lookup) (project : Path) (dryRun : Bool) (result : UpdateResult) :
    let after := updateFile parser lookup project dryRun (result, h) file
    FilesChanged (· = Listing.place file) h.disk after.2.disk ∧
      KeepsEntries h.disk after.2.disk ∧ result.Grows after.1 ∧
      (dryRun = false → after.1.Accounts parser lookup project d after.2.disk file) := by
  intro after
  have hlinks := hchanged.hasNoLinks hd.hasNoLinks
  obtain ⟨hnames, hpath⟩ := hf.isPlace
  have hway : ∀ k ≤ (Listing.place file).length,
      h.disk.node? ((Listing.place file).take k) = d.node? ((Listing.place file).take k) := by
    obtain ⟨bytes, perms, hnode⟩ := hf.node
    exact hchanged.node?_take_eq (fun hne => hne rfl) fun k hk => hd.isDir_above hk hnode
  have hhere : h.disk.node? (Listing.place file) = d.node? (Listing.place file) := by
    simpa using hway _ (Nat.le_refl _)
  have hreads : h.disk.readText? file = d.readText? file := by
    rw [← hpath]
    exact Disk.readText?_congr hd.hasNoLinks hlinks hnames hway
  obtain ⟨hgrows, ⟨hsame, hfail⟩ | ⟨source, literals, ⟨htext, hparse⟩, hunedited, hwrite⟩⟩ :=
    updateFile_cases parser lookup project dryRun result h file
  · rw [hsame]
    refine ⟨FilesChanged.refl _ _, KeepsEntries.refl _, hgrows, fun _ => ?_⟩
    exact .failed hhere (Or.inl hfail)
  rw [hreads] at htext
  have hread : d.ReadsAs parser file source literals := ⟨htext, hparse⟩
  rcases hwrite with ⟨hsame, hwhy⟩ | hwrite
  · rw [hsame]
    refine ⟨FilesChanged.refl _ _, KeepsEntries.refl _, hgrows, fun hdry => ?_⟩
    rcases hwhy with hempty | hdry' | hfail
    · -- nothing was to be written, and the file has the bytes of its text
      rw [← hpath] at htext
      obtain ⟨bytes, perms, hnode, hbytes⟩ := Disk.readText?_pathOf hd.hasNoLinks hnames htext
      refine .edited hread hunedited ⟨perms, ?_⟩
      rw [Plan.edited_of_no_edits hempty, Text.ofUtf8?_eq_some_iff.mp hbytes, hhere, hnode]
    · rw [hdry] at hdry'
      exact absurd hdry' (by simp)
    · exact .failed hhere (Or.inr hfail)
  · have hplace : ∀ bytes d', h.disk.write? file bytes = .ok d' →
        h.disk.write? (Disk.pathOf (Listing.place file)) bytes = .ok d' := by
      intro bytes d' hw
      rwa [hpath]
    obtain ⟨hne, -, perms, -, hput⟩ := Disk.write?_pathOf hlinks hnames (hplace _ _ hwrite)
    refine ⟨Disk.filesChanged_write? hlinks hnames (hplace _ _ hwrite), ?_, hgrows, fun _ => ?_⟩
    · rw [hput]
      exact KeepsEntries.put hne _
    · refine .edited hread hunedited ⟨perms, ?_⟩
      rw [hput, Disk.node?_put hne, if_pos rfl]

/-- The steps of an update from any of its states on, for files that are as the run found them. -/
lemma foldl_updateFile_spec (hd : d.IsTree) (hcodes : ∀ file ∈ codes, d.HoldsFile file)
    (hnodup : codes.Nodup)
    (hchanged : FilesChanged (fun l => ∀ file ∈ codes, l ≠ Listing.place file) d h.disk)
    (parser : ParserOf) (lookup : Lookup) (project : Path) (dryRun : Bool)
    (result : UpdateResult) :
    let after := codes.foldl (updateFile parser lookup project dryRun) (result, h)
    FilesChanged (fun l => ∃ file ∈ codes, l = Listing.place file) h.disk after.2.disk ∧
      KeepsEntries h.disk after.2.disk ∧ result.Grows after.1 ∧
      (dryRun = false → ∀ file ∈ codes,
        after.1.Accounts parser lookup project d after.2.disk file) := by
  induction codes generalizing result h with
  | nil =>
      refine ⟨FilesChanged.refl _ _, KeepsEntries.refl _, UpdateResult.Grows.refl _, ?_⟩
      exact fun _ file hfile => absurd hfile (by simp)
  | cons file codes ih =>
      obtain ⟨hnot, hnodup'⟩ := List.nodup_cons.mp hnodup
      have hf := hcodes file (by simp)
      obtain ⟨hfirst, hkeeps, hgrows, haccounts⟩ := updateFile_spec hd hf
        (hchanged.mono fun l hl => hl file (by simp)) parser lookup project dryRun result
      -- no later file has the place of this one
      have hapart : ∀ f ∈ codes, Listing.place file ≠ Listing.place f := by
        intro f hmem heq
        have hsame := hf.isPlace.eq_of_place_eq (hcodes f (by simp [hmem])).isPlace heq
        exact hnot (hsame ▸ hmem)
      have hafter : FilesChanged (fun l => ∀ f ∈ codes, l ≠ Listing.place f) d
          (updateFile parser lookup project dryRun (result, h) file).2.disk := by
        refine (hchanged.mono fun l hl f hmem => hl f (by simp [hmem])).trans (hfirst.mono ?_)
        rintro l rfl
        exact hapart
      obtain ⟨hrest, hkeeps', hgrows', haccounts'⟩ := ih
        (fun f hmem => hcodes f (by simp [hmem])) hnodup' hafter
        (updateFile parser lookup project dryRun (result, h) file).1
      rw [List.foldl_cons]
      refine ⟨(hfirst.mono ?_).trans (hrest.mono ?_), hkeeps.trans hkeeps',
        hgrows.trans hgrows', ?_⟩
      · rintro l rfl
        exact ⟨file, by simp, rfl⟩
      · rintro l ⟨f, hmem, rfl⟩
        exact ⟨f, by simp [hmem], rfl⟩
      · intro hdry f hmem
        rcases List.mem_cons.mp hmem with rfl | hmem
        · refine (haccounts hdry).mono hgrows' (hrest.node?_eq ?_)
          rintro ⟨g, hg, heq⟩
          exact hapart g hg heq
        · exact haccounts' hdry f hmem

end AllFiles

end ImageMigration
