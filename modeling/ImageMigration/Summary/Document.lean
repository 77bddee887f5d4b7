/-
The facts of a run as a JSON record.

Every fact has to be there; members that are no facts are passed over. The decision on the cleanup
is a record of its own, whose `status` says which of the decisions it is.

* `Summary.toJson`, `Summary.ofJson?`: the facts of a run; `Summary.render`, `Summary.read?`: their
  document;
* `CleanupDecision.toJson`, `CleanupDecision.ofJson?`: the decision.
-/
import ImageMigration.Config.Document
import ImageMigration.Json.Held
import ImageMigration.Summary

namespace ImageMigration

/-- The number of a count. -/
def countOfJson? (j : Json) : Option Nat := j.asNat? maxCount

/-- A list of paths. -/
def pathsOfJson? (j : Json) : Option (List Path) :=
  (j.asList? Json.asText?).map fun texts => texts.map Path.mk

/-- A list of paths as a document. -/
def pathsToJson (paths : List Path) : Json := Json.ofList (fun p => Json.ofText p.text) paths

/-- A list of texts as a document. -/
def textsToJson (texts : List Text) : Json := Json.ofList Json.ofText texts

namespace CleanupDecision

/-- The name of a decision. -/
def status : CleanupDecision → Text
  | notRequested => "not_requested".toList
  | dryRun => "dry_run".toList
  | blocked _ _ _ => "blocked".toList
  | allowed => "allowed".toList

/-- The name of the member that tells the decisions apart. -/
def statusName : Text := "status".toList

/-- The names of the counts of a blocked cleanup. -/
def countNames : List Text :=
  ["unparseable_files".toList, "unwritten_files".toList, "unedited_files".toList]

/-- The counts of a blocked cleanup, in the order of their names. -/
def counts : CleanupDecision → List (Text × Json)
  | blocked unparseable unwritten unedited =>
    (countNames.map Json.escape).zip
      [Json.ofNat unparseable, Json.ofNat unwritten, Json.ofNat unedited]
  | _ => []

/-- A decision as a record. -/
def toJson (d : CleanupDecision) : Json :=
  .object ((Json.escape statusName, Json.ofText d.status) :: d.counts)

/-- The blocked cleanup whose counts a document gives. -/
def blockedOfJson? (j : Json) : Option CleanupDecision :=
  match Json.fields? countNames j with
  | some [some unparseable, some unwritten, some unedited] => do
    let unparseable ← countOfJson? unparseable
    let unwritten ← countOfJson? unwritten
    let unedited ← countOfJson? unedited
    some (blocked unparseable unwritten unedited)
  | _ => none

/-- Whether a document holds no items. -/
def isPlain : Json → Bool
  | .array items => items.isEmpty
  | _ => true

/-- The decision of a name, with what a document says besides. -/
def ofStatus? (status : Text) (data : Json) : Option CleanupDecision :=
  if status = "blocked".toList then blockedOfJson? data
  else if !isPlain data then none
  else [notRequested, dryRun, allowed].find? fun d => d.status == status

/-- How far down the values in the record of a decision go. A reader goes down 127 levels, and the
record is on the second one. -/
def maxLevels : Nat := 125

/-- The decision of a record. In an array the name of the decision comes first. All other values are
kept until it is found. -/
def ofJson? : Json → Option CleanupDecision
  | .object members =>
    if Json.membersHeld maxLevels members then do
      let named ← Json.named? members
      let status ← ← Json.single? named statusName
      ofStatus? (← status.asText?) (.object members)
    else none
  | .array (status :: data) =>
    if Json.itemsHeld maxLevels data then do ofStatus? (← status.asText?) (.array data) else none
  | _ => none

end CleanupDecision

namespace Summary

/-- The names of the facts in their order. -/
def fieldNames : List Text :=
  ["images_found".toList, "code_files_found".toList, "used_images".toList,
   "unused_images".toList, "converted".toList, "bytes_saved".toList, "updated_files".toList,
   "warnings".toList, "conversion_errors".toList, "tracker_parse_failures".toList,
   "codemod_parse_failures".toList, "codemod_write_failures".toList,
   "codemod_unedited_files".toList, "cleanup".toList, "deleted_originals".toList,
   "deleted_unused".toList]

/-- The values of the facts in the order of their names. -/
def fieldValues (s : Summary) : List Json :=
  [Json.ofNat s.imagesFound, Json.ofNat s.codeFilesFound, Json.ofNat s.usedImages,
   pathsToJson s.unusedImages, Json.ofNat s.converted, Json.ofNat s.bytesSaved,
   Json.ofNat s.updatedFiles, textsToJson s.warnings, textsToJson s.conversionErrors,
   pathsToJson s.trackerParseFailures, pathsToJson s.codemodParseFailures,
   pathsToJson s.codemodWriteFailures, pathsToJson s.codemodUneditedFiles, s.cleanup.toJson,
   Json.ofNat s.deletedReplaced, Json.ofNat s.deletedUnused]

/-- The members of the record of a run. -/
def members (s : Summary) : List (Text × Json) :=
  (fieldNames.map Json.escape).zip s.fieldValues

/-- The facts of a run as a record. -/
def toJson (s : Summary) : Json := .object s.members

/-- The facts of a record of which no field is missing. -/
def ofFields? : List Json → Option Summary
  | [images, codes, used, unused, converted, saved, updated, warnings, errors, trackerFailures,
      codemodFailures, writeFailures, unedited, cleanup, deletedReplaced, deletedUnused] => do
    let imagesFound ← countOfJson? images
    let codeFilesFound ← countOfJson? codes
    let usedImages ← countOfJson? used
    let unusedImages ← pathsOfJson? unused
    let converted ← countOfJson? converted
    let bytesSaved ← countOfJson? saved
    let updatedFiles ← countOfJson? updated
    let warnings ← warnings.asList? Json.asText?
    let conversionErrors ← errors.asList? Json.asText?
    let trackerParseFailures ← pathsOfJson? trackerFailures
    let codemodParseFailures ← pathsOfJson? codemodFailures
    let codemodWriteFailures ← pathsOfJson? writeFailures
    let codemodUneditedFiles ← pathsOfJson? unedited
    let cleanup ← CleanupDecision.ofJson? cleanup
    let deletedReplaced ← countOfJson? deletedReplaced
    let deletedUnused ← countOfJson? deletedUnused
    some
      { imagesFound, codeFilesFound, usedImages, unusedImages, converted, bytesSaved, updatedFiles,
        warnings, conversionErrors, trackerParseFailures, codemodParseFailures,
        codemodWriteFailures, codemodUneditedFiles, cleanup, deletedReplaced, deletedUnused }
  | _ => none

/-- The facts of a record. -/
def ofJson? (j : Json) : Option Summary := do
  let fields ← Json.fields? fieldNames j
  let values ← fields.mapM id
  ofFields? values

/-- The facts of a run as a document over several lines. -/
def render (s : Summary) : Text := s.toJson.pretty

/-- The facts that a document tells. -/
def read? (t : Text) : Option Summary := (Json.read? t).bind ofJson?

end Summary

end ImageMigration
