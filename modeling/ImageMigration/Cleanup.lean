/-
Deleting what is no longer needed, when that is safe.

Converted and unused images are deleted on demand only, and only if every source file was read,
understood, updated and left without a reference to a converted image.

* `CleanupDecision`, `decideCleanup`: whether files may be deleted;
* `deleteFiles`: deletes a list of files, each on its own, and counts the deleted ones.
-/
import ImageMigration.Update

namespace ImageMigration

/-- Whether files may be deleted at the end of a run. -/
inductive CleanupDecision where
  /-- nobody asked for it -/
  | notRequested
  /-- it was asked for in a dry run -/
  | dryRun
  /-- some source files were not read, not written, or not fully edited -/
  | blocked (unparseable unwritten unedited : Nat)
  | allowed
  deriving DecidableEq, Inhabited

/-- The decision for numbers of files that were not read, not written, and not fully edited. -/
def CleanupDecision.ofCounts (config : Config) (unparseable unwritten unedited : Nat) :
    CleanupDecision :=
  if !config.deleteReplaced then notRequested
  else if config.dryRun then dryRun
  else if 0 < unparseable ∨ 0 < unwritten ∨ 0 < unedited then
    blocked unparseable unwritten unedited
  else allowed

/-- The decision after both passes over the source files. -/
def CleanupDecision.ofPasses (config : Config) (c : Classification) (r : UpdateResult) :
    CleanupDecision :=
  ofCounts config (c.parseFailures.length + r.parseFailures.length) r.writeFailures.length
    r.unedited.length

/-- The line in the log for a decision. -/
def CleanupDecision.events : CleanupDecision → List Event
  | blocked unparseable unwritten unedited => [.deletionSkipped unparseable unwritten unedited]
  | _ => []

/-- Decides after both passes over the source files. -/
def decideCleanup (config : Config) (c : Classification) (r : UpdateResult) (h : Host) :
    CleanupDecision × Host :=
  let decision := CleanupDecision.ofPasses config c r
  (decision, h.reportAll decision.events)

/-- Deletes one file and adds it to the count. -/
def deleteFile (state : Nat × Host) (path : Path) : Nat × Host :=
  let (count, h) := state
  match h.change .delete path (·.remove? path) with
  | (.ok (), h) => (count + 1, h.report (.changed .delete path none))
  | (.error e, h) =>
    (count, h.reportAll [.notDeleted path e, .failed .delete path e.message])

/-- Deletes files if the decision allows it, and counts the deleted ones. -/
def deleteFiles (decision : CleanupDecision) (paths : List Path) (h : Host) : Nat × Host :=
  if decision = .allowed then paths.foldl deleteFile (0, h) else (0, h)

end ImageMigration
