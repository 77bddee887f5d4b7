/-
Pointing the sources of a project to its converted images.

Every source file is read, planned and written on its own. A file that cannot be read, understood or
written is told apart, and so is one that still refers to a converted image after its edits.

* `UpdateResult`: what became of the files;
* `updateFile`: one file; `updateAll`: a list of files. Without converted images nothing is read.
-/
import ImageMigration.Plan
import ImageMigration.Usage

namespace ImageMigration

/-- What became of the source files. -/
structure UpdateResult where
  /-- the number of files with edits -/
  updated : Nat
  parseFailures : List Path
  writeFailures : List Path
  /-- files that still refer to a converted image -/
  unedited : List Path
  deriving DecidableEq, Inhabited

/-- Nothing was done. -/
def UpdateResult.empty : UpdateResult := ⟨0, [], [], []⟩

/-! ### The log of a plan -/

/-- The lines in the log for a string that is written again. -/
def reemitEvents (site : Site) (source : Text) (span : Span) (value : Text) (verbatim : Bool)
    (swaps : List Edit) : List Event :=
  if !swaps.isEmpty && !verbatim && decide ('\\' ∈ Plan.interior source span) then
    .reemitting value site.file ::
      (Edit.dropped value.bytes (Edit.inOrder swaps)).map Event.droppingEdit
  else []

/-- The lines in the log for planning a literal. -/
def planEvents (lookup : Lookup) (site : Site) (source : Text) : Literal → List Event
  | .string span value verbatim =>
    (Reference.ofValue value).flatMap (candidateEvents site) ++
      reemitEvents site source span value verbatim (valueEdits lookup site value)
  | .template _ _ => []

/-! ### Files -/

/-- The details of an update in the log. -/
def updateDetails (edits : List Edit) : Text :=
  Text.ofNat edits.length ++ " reference(s) updated".toList

/-- The source with the edits of a plan. -/
def Plan.edited (source : Text) (plan : Plan) : Text :=
  (Edit.applyAll? source plan.edits).getD source

/-- Writes the edits of a file. -/
def writeEdits (project file : Path) (source : Text) (plan : Plan) (result : UpdateResult)
    (h : Host) : UpdateResult × Host :=
  let h := h.reportAll ((Edit.dropped source.bytes (Edit.inOrder plan.edits)).map .droppingEdit)
  match h.change .write file (·.write? file (Plan.edited source plan).toUtf8) with
  | (.error e, h) =>
    ({ result with writeFailures := result.writeFailures ++ [file.relativeTo project] },
      h.report (.failed .write file e.message))
  | (.ok (), h) =>
    ({ result with updated := result.updated + 1 },
      h.report (.changed .update file (some (updateDetails plan.edits))))

/-- Carries out the plan of a file. -/
def carryOut (project file : Path) (source : Text) (plan : Plan) (dryRun : Bool)
    (result : UpdateResult) (h : Host) : UpdateResult × Host :=
  let (result, h) :=
    if 0 < plan.unedited then
      ({ result with unedited := result.unedited ++ [file.relativeTo project] },
        h.report (.uneditedReferences plan.unedited file))
    else (result, h)
  if plan.edits.isEmpty then (result, h)
  else if dryRun then ({ result with updated := result.updated + 1 }, h)
  else writeEdits project file source plan result h

/-- Adds a file that could not be read. -/
def UpdateResult.addFailure (result : UpdateResult) (file : Path) : UpdateResult :=
  { result with parseFailures := result.parseFailures ++ [file] }

/-- Updates one file. -/
def updateFile (parser : ParserOf) (lookup : Lookup) (project : Path) (dryRun : Bool)
    (state : UpdateResult × Host) (file : Path) : UpdateResult × Host :=
  let (result, h) := state
  match h.look .read file (·.readText? file) with
  | (.error e, h) =>
    (result.addFailure (file.relativeTo project), h.report (.failed .read file e.message))
  | (.ok source, h) =>
    match parser.literals? file source with
    | none =>
      (result.addFailure (file.relativeTo project),
        h.report (.parseFailed .codemod file (Failure.parse file).message))
    | some literals =>
      let site : Site := ⟨project, file⟩
      let plan := Plan.ofLiterals lookup site source literals
      let h := h.reportAll (literals.flatMap (planEvents lookup site source))
      carryOut project file source plan dryRun result h

/-- Updates a list of files for the images that were converted. -/
def updateAll (parser : ParserOf) (codes : List Path) (outcomes : List Outcome) (project : Path)
    (dryRun : Bool) (h : Host) : UpdateResult × Host :=
  let lookup := Lookup.ofOutcomes outcomes
  if lookup.isEmpty then (.empty, h)
  else codes.foldl (updateFile parser lookup project dryRun) (.empty, h)

end ImageMigration
