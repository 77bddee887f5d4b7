/-
Updates, told by the answers of the machine.

A source is read, its plan is made, and the edits of the plan are written. Each of these can fail,
and a dry run ends before the last one. So an update ends in a few ways only, and everything that
holds of it can be looked at in each of them.

* `noteUnedited`, `carryOut_eq`: a plan is noted before it is carried out;
* `WriteEnds`, `CarryOutEnds`, `UpdateEnds`: **all the ways in which writing, carrying out a plan and
  updating a source can end.**
-/
import ImageMigration.Update
import ImageMigration.Proofs.Host.Answers

namespace ImageMigration

/-- The lines in the log about the edits of a plan that are dropped. -/
def Plan.droppingEvents (plan : Plan) (source : Text) : List Event :=
  (Edit.dropped source.bytes (Edit.inOrder plan.edits)).map .droppingEdit

/-- The result and the machine after a file was told apart for references that stay as they are. -/
def noteUnedited (project file : Path) (plan : Plan) (result : UpdateResult) (h : Host) :
    UpdateResult × Host :=
  if 0 < plan.unedited then
    ({ result with unedited := result.unedited ++ [file.relativeTo project] },
      h.report (.uneditedReferences plan.unedited file))
  else (result, h)

/-- Carrying out a plan goes on from there. -/
lemma carryOut_eq (project file : Path) (source : Text) (plan : Plan) (dryRun : Bool)
    (result : UpdateResult) (h : Host) :
    carryOut project file source plan dryRun result h
      = let noted := noteUnedited project file plan result h
        if plan.edits.isEmpty then noted
        else if dryRun then ({ noted.1 with updated := noted.1.updated + 1 }, noted.2)
        else writeEdits project file source plan noted.1 noted.2 := rfl

/-! ### Writing -/

/-- Writing the edits of a source on a machine that was told of the dropped ones ends with `after`:
the source cannot be written, or it was. -/
inductive WriteEnds (project file : Path) (source : Text) (plan : Plan) (result : UpdateResult)
    (told : Host) : (after : UpdateResult × Host) → Prop
  | unwritable (e : OsError)
      (hwrite : told.answer .write file (·.write? file (plan.edited source).toUtf8) = .error e) :
      WriteEnds project file source plan result told
        ({ result with writeFailures := result.writeFailures ++ [file.relativeTo project] },
          told.tick.report (.failed .write file e.message))
  | written (disk : Disk)
      (hwrite : told.answer .write file (·.write? file (plan.edited source).toUtf8) = .ok disk) :
      WriteEnds project file source plan result told
        ({ result with updated := result.updated + 1 },
          Host.report { told.tick with disk }
            (.changed .update file (some (updateDetails plan.edits))))

/-- **Writing the edits of a source ends in one of these ways.** -/
lemma writeEnds (project file : Path) (source : Text) (plan : Plan) (result : UpdateResult)
    (h : Host) :
    WriteEnds project file source plan result (h.reportAll (plan.droppingEvents source))
      (writeEdits project file source plan result h) := by
  rw [writeEdits, ← Plan.droppingEvents, Host.change_eq]
  cases hwrite : (h.reportAll (plan.droppingEvents source)).answer .write file
      (·.write? file (plan.edited source).toUtf8) with
  | error e => exact .unwritable e hwrite
  | ok disk => exact .written disk hwrite

/-! ### Plans -/

/-- Carrying out a plan that was noted ends with `after`: there is nothing to write, the run is dry,
or the edits are written. -/
inductive CarryOutEnds (project file : Path) (source : Text) (plan : Plan) (dryRun : Bool)
    (noted : UpdateResult × Host) : (after : UpdateResult × Host) → Prop
  | untouched (hedits : plan.edits = []) :
      CarryOutEnds project file source plan dryRun noted noted
  | previewed (hedits : plan.edits ≠ []) (hdry : dryRun = true) :
      CarryOutEnds project file source plan dryRun noted
        ({ noted.1 with updated := noted.1.updated + 1 }, noted.2)
  | written (hedits : plan.edits ≠ []) (hwet : dryRun = false) :
      CarryOutEnds project file source plan dryRun noted
        (writeEdits project file source plan noted.1 noted.2)

/-- **Carrying out a plan ends in one of these ways.** -/
lemma carryOutEnds (project file : Path) (source : Text) (plan : Plan) (dryRun : Bool)
    (result : UpdateResult) (h : Host) :
    CarryOutEnds project file source plan dryRun (noteUnedited project file plan result h)
      (carryOut project file source plan dryRun result h) := by
  rw [carryOut_eq]
  generalize noteUnedited project file plan result h = noted
  simp only
  by_cases hempty : plan.edits.isEmpty = true
  · rw [if_pos hempty]
    exact .untouched (List.isEmpty_iff.mp hempty)
  rw [if_neg hempty]
  have hedits : plan.edits ≠ [] := fun hnil => hempty (List.isEmpty_iff.mpr hnil)
  cases hdry : dryRun with
  | true => exact .previewed hedits rfl
  | false => exact .written hedits rfl

/-! ### Sources -/

/-- The update of a source ends with `after`: it cannot be read or understood, or its plan is
carried out. -/
inductive UpdateEnds (parser : ParserOf) (lookup : Lookup) (project : Path) (dryRun : Bool)
    (result : UpdateResult) (h : Host) (file : Path) : (after : UpdateResult × Host) → Prop
  | unread (e : OsError) (hread : h.answer .read file (·.readText? file) = .error e) :
      UpdateEnds parser lookup project dryRun result h file
        (result.addFailure (file.relativeTo project),
          h.tick.report (.failed .read file e.message))
  | unparsed (source : Text) (hread : h.answer .read file (·.readText? file) = .ok source)
      (hparse : parser.literals? file source = none) :
      UpdateEnds parser lookup project dryRun result h file
        (result.addFailure (file.relativeTo project),
          h.tick.report (.parseFailed .codemod file (Failure.parse file).message))
  | planned (source : Text) (literals : List Literal)
      (hread : h.answer .read file (·.readText? file) = .ok source)
      (hparse : parser.literals? file source = some literals) :
      UpdateEnds parser lookup project dryRun result h file
        (carryOut project file source (Plan.ofLiterals lookup ⟨project, file⟩ source literals)
          dryRun result
          (h.tick.reportAll (literals.flatMap (planEvents lookup ⟨project, file⟩ source))))

/-- **The update of a source ends in one of these ways.** -/
lemma updateEnds (parser : ParserOf) (lookup : Lookup) (project : Path) (dryRun : Bool)
    (result : UpdateResult) (h : Host) (file : Path) :
    UpdateEnds parser lookup project dryRun result h file
      (updateFile parser lookup project dryRun (result, h) file) := by
  rw [updateFile, Host.look_eq]
  cases hread : h.answer .read file (·.readText? file) with
  | error e => exact .unread e hread
  | ok source =>
      cases hparse : parser.literals? file source with
      | none =>
          simp only [hparse]
          exact .unparsed source hread hparse
      | some literals =>
          simp only [hparse]
          exact .planned source literals hread hparse

end ImageMigration
