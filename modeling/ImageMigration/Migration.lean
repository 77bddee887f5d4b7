/-
A whole run: search, classify, convert, update the sources, clean up.

* `migrate`: the run. Only a search that cannot start ends it early; whatever goes wrong with single
  files is told in the summary.
-/
import ImageMigration.Conversion
import ImageMigration.Summary

namespace ImageMigration

/-- What a run works with: the settings, the encoder, and the way to read source files. -/
structure Migration where
  config : Config
  converter : Converter
  parser : ParserOf

namespace Migration

/-- The end of a run that found no image in use: unused images may be deleted. -/
def finishUnused (m : Migration) (c : Classification) (s : Summary) (h : Host) : Summary × Host :=
  let h := h.report .noneUsed
  let (decision, h) := decideCleanup m.config c .empty h
  let (deleted, h) := deleteFiles decision c.unused h
  ({ s with deletedUnused := deleted, cleanup := decision }, h)

/-- The line about an image that could not be converted. -/
def conversionError? (o : Outcome) : Option Text :=
  o.error.map fun e => o.image.text ++ ": ".toList ++ e

/-- The facts about the conversions. -/
def withConversions (s : Summary) (outcomes : List Outcome) : Summary :=
  let successful := outcomes.filter fun o => !o.skipped
  { s with
    converted := successful.length
    bytesSaved := Outcome.totalSaved successful
    conversionErrors := outcomes.filterMap conversionError? }

/-- The facts about the update of the sources. -/
def withUpdate (s : Summary) (r : UpdateResult) : Summary :=
  { s with
    updatedFiles := r.updated
    codemodParseFailures := r.parseFailures
    codemodWriteFailures := r.writeFailures
    codemodUneditedFiles := r.unedited }

/-- The end of a run: converted and unused images may be deleted. -/
def cleanUp (m : Migration) (c : Classification) (r : UpdateResult) (successful : List Outcome)
    (s : Summary) (h : Host) : Summary × Host :=
  let (decision, h) := decideCleanup m.config c r h
  if decision = .allowed then
    let (replaced, h) := deleteFiles decision (successful.map Outcome.image) h
    let (unused, h) := deleteFiles decision c.unused h
    ({ s with cleanup := decision, deletedReplaced := replaced, deletedUnused := unused },
      h.report (.deleted replaced unused))
  else
    let h := if 0 < s.parseFailureCount then h.report (.parserSkipped s.parseFailureCount) else h
    ({ s with cleanup := decision }, h)

/-- Points the sources to the converted images, if there are any. -/
def updateSources (m : Migration) (codes : List Path) (successful : List Outcome) (project : Path)
    (h : Host) : UpdateResult × Host :=
  if successful.isEmpty then (.empty, h)
  else updateAll m.parser codes successful project m.config.dryRun (h.report .updatingReferences)

/-- The part of a run that converts the images in use. -/
def convertAndFinish (m : Migration) (codes : List Path) (project : Path) (c : Classification)
    (s : Summary) (h : Host) : Summary × Host :=
  let h := h.report (.converting c.used.length m.converter.extension)
  let (outcomes, h) := convertAll m.converter c.used m.config.quality m.config.dryRun h
  let successful := outcomes.filter fun o => !o.skipped
  let s := withConversions s outcomes
  let h := h.report (.converted s.converted s.saved)
  let (r, h) := m.updateSources codes successful project h
  let h := h.report (.updatedFiles r.updated)
  m.cleanUp c r successful (withUpdate s r) h

/-- The part of a run behind the search. -/
def processInventory (m : Migration) (project : Path) (inventory : Inventory) (h : Host) :
    Summary × Host :=
  let s := Summary.ofInventory inventory
  if inventory.images.isEmpty then (s, h.report .noImages)
  else
    let (c, h) := classify m.parser inventory.codes inventory.images project m.config h
    let h := h.report (.identified c.used.length c.unused.length)
    let s :=
      { s with
        usedImages := c.used.length, unusedImages := c.unused, warnings := c.warnings,
        trackerParseFailures := c.parseFailures }
    if c.used.isEmpty then m.finishUnused c s h
    else m.convertAndFinish inventory.codes project c s h

/-- Searches the project for images and source files. -/
def scan (m : Migration) (h : Host) : Except Failure Inventory × Host :=
  Inventory.scan h (h.disk.absoluteDir m.config.targetDir) m.config

/-- A whole run. -/
def run (m : Migration) (h : Host) : Except Failure Summary × Host :=
  let project := h.disk.absoluteDir m.config.targetDir
  let h := h.report (.scanning project)
  match Inventory.scan h project m.config with
  | (.error failure, h) => (.error failure, h)
  | (.ok inventory, h) =>
    let h := h.report (.found inventory.images.length inventory.codes.length)
    let (s, h) := m.processInventory project inventory h
    (.ok s, h)

end Migration

end ImageMigration
