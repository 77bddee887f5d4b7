/-
What a run tells about itself.

* `Summary`: the facts of a run; `Summary.ofInventory` those of a run that found nothing to do;
* `Summary.report`: the facts for the operator, long lists cut short.
-/
import ImageMigration.Cleanup

namespace ImageMigration

/-- The facts of a run. -/
structure Summary where
  imagesFound : Nat
  codeFilesFound : Nat
  usedImages : Nat
  unusedImages : List Path
  converted : Nat
  bytesSaved : Nat
  updatedFiles : Nat
  warnings : List Text
  conversionErrors : List Text
  trackerParseFailures : List Path
  codemodParseFailures : List Path
  codemodWriteFailures : List Path
  codemodUneditedFiles : List Path
  cleanup : CleanupDecision
  deletedReplaced : Nat
  deletedUnused : Nat
  deriving DecidableEq, Inhabited

namespace Summary

/-- The facts of a run that only searched. -/
def ofInventory (inventory : Inventory) : Summary :=
  { imagesFound := inventory.images.length, codeFilesFound := inventory.codes.length,
    usedImages := 0, unusedImages := [], converted := 0, bytesSaved := 0, updatedFiles := 0,
    warnings := [], conversionErrors := [], trackerParseFailures := [], codemodParseFailures := [],
    codemodWriteFailures := [], codemodUneditedFiles := [], cleanup := .notRequested,
    deletedReplaced := 0, deletedUnused := 0 }

/-- The number of source files that were passed over, in both passes together. -/
def parseFailureCount (s : Summary) : Nat :=
  s.trackerParseFailures.length + s.codemodParseFailures.length

/-- The space saved. -/
def saved (s : Summary) : Megabytes := .ofBytes s.bytesSaved

/-! ### The report -/

/-- How many items of a list are shown. -/
def maxListed : Nat := 5

/-- The first items of a list, and how many were left out. -/
def cappedLines (items : List Text) : List Text :=
  (items.take maxListed).map ("  - ".toList ++ ·) ++
    if maxListed < items.length then
      ["  ...and ".toList ++ Text.ofNat (items.length - maxListed) ++ " more".toList]
    else []

/-- A list under a headline, with an empty line in front, unless there are no items. -/
def headed (headline : Text) (lines items : List Text) : List Text :=
  if items.isEmpty then [] else [] :: headline :: lines

/-- What is told about files that were passed over. -/
def skippedLines (s : Summary) : List Text :=
  if 0 < s.parseFailureCount then
    [[], "Parser skipped ".toList ++ Text.ofNat s.parseFailureCount ++
      " source files. Review warnings before running with --delete-originals.".toList]
  else []

/-- What is told about the cleanup. -/
def cleanupLines (s : Summary) : List Text :=
  match s.cleanup with
  | .notRequested => s.skippedLines
  | .dryRun => [[], "Deletion skipped: dry run.".toList] ++ s.skippedLines
  | .blocked unparseable unwritten unedited =>
    [[], "Safety gate: skipped deleting originals/unused images. ".toList ++
      Text.ofNat unparseable ++ " source files could not be parsed, ".toList ++
      Text.ofNat unwritten ++ " could not be written and ".toList ++ Text.ofNat unedited ++
      " still reference converted images.".toList] ++
      cappedLines
        ((s.trackerParseFailures ++ s.codemodParseFailures ++ s.codemodWriteFailures ++
          s.codemodUneditedFiles).map Path.text)
  | .allowed =>
    [[], "Deleted ".toList ++ Text.ofNat s.deletedReplaced ++ " converted originals and ".toList ++
      Text.ofNat s.deletedUnused ++ " unused images".toList]

/-- What is told about a run that found images. Unused images are shown as paths in the project. -/
def bodyLines (s : Summary) (root : Path) : List Text :=
  ["Converted ".toList ++ Text.ofNat s.converted ++ "/".toList ++ Text.ofNat s.usedImages ++
      " used images to WebP".toList,
   "Saved ".toList ++ s.saved.render ++ " MB".toList,
   "Updated ".toList ++ Text.ofNat s.updatedFiles ++ " source files".toList] ++
  headed (Text.ofNat s.conversionErrors.length ++ " images could not be converted:".toList)
    (s.conversionErrors.map ("  - ".toList ++ ·)) s.conversionErrors ++
  headed "Warnings:".toList (cappedLines s.warnings) s.warnings ++
  (let shown := s.unusedImages.map fun image => (image.relativeTo root).text
   headed (Text.ofNat shown.length ++ " unused images:".toList) (cappedLines shown) shown) ++
  s.cleanupLines

/-- The report for the operator, line by line. -/
def reportLines (s : Summary) (dryRun : Bool) (root : Path) : List Text :=
  (if dryRun then ["Dry run: no files were written or deleted.".toList] else []) ++
  if s.imagesFound = 0 then ["No PNG/JPEG images found.".toList] else s.bodyLines root

/-- The report for the operator. -/
def report (s : Summary) (dryRun : Bool) (root : Path) : Text :=
  (s.reportLines dryRun root).flatMap (· ++ ['\n'])

end Summary

end ImageMigration
