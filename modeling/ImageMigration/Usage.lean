/-
Which images of a project its sources use.

Every source file is read for references. An image is used if some reference may denote it, or if it
ends with what a reference from the root names. Files that cannot be read or understood are told
apart, so that nothing is deleted on the strength of what they may hold.

* `ParserOf`: how the literals of a file are found, which the rest takes as given;
  `ParserOf.literals?`: how they are taken from it;
* `UsageIndex`: what the references of all sources name;
* `Classification`, `classify`: the used and the unused images.
-/
import ImageMigration.Inventory
import ImageMigration.Literal
import ImageMigration.Script

namespace ImageMigration

/-- A way to find the literals of a file. A file that it cannot read has none. -/
abbrev ParserOf := Path → Text → Option (List Literal)

/-- The literals that a parser finds in a file, as they are taken from it. -/
def ParserOf.literals? (parser : ParserOf) (file : Path) (source : Text) : Option (List Literal) :=
  (parser file source).map fun literals => literals.map (Literal.collected source)

/-- What the references of the sources name. -/
structure UsageIndex where
  /-- the paths that references may denote, each once, in the order of their first mention -/
  candidates : List Path
  /-- what references from the root name, each once, in the order of their first mention -/
  publicUsages : List Text
  warnings : List Text
  /-- files that could not be read, as paths in the project -/
  parseFailures : List Path
  deriving DecidableEq, Inhabited

/-- A list with an item added at its end, unless it is there already. -/
def addNew {α : Type} [BEq α] (items : List α) (a : α) : List α :=
  if items.contains a then items else items ++ [a]

/-- A list without repetitions, in the order of first occurrence. -/
def distinct {α : Type} [BEq α] (items : List α) : List α := items.foldl addNew []

namespace UsageIndex

/-- Nothing is named. -/
def empty : UsageIndex := ⟨[], [], [], []⟩

/-- Adds a file that could not be read. -/
def addFailure (index : UsageIndex) (file : Path) : UsageIndex :=
  { index with parseFailures := index.parseFailures ++ [file] }

/-- The warning about a chunk of a template in a file. -/
def dynamicWarning (file : Path) : Text := "Dynamic \x60src\x60 found in ".toList ++ file.text

/-- Adds a reference. -/
def addReference (site : Site) (index : UsageIndex) (r : Reference) : UsageIndex :=
  match r.kind with
  | .dynamic =>
    { index with warnings := index.warnings ++ [dynamicWarning (site.file.relativeTo site.project)] }
  | .static =>
    { index with
      publicUsages :=
        if r.isRootAbsolute then addNew index.publicUsages r.publicSuffix else index.publicUsages
      candidates := (r.candidates site).foldl addNew index.candidates }

/-- Whether an image is named. -/
def names (index : UsageIndex) (image : Path) : Bool :=
  index.candidates.contains image || index.publicUsages.any image.endsWithUsage

end UsageIndex

/-- The lines in the log for the candidates of a reference. -/
def candidateEvents (site : Site) (r : Reference) : List Event :=
  r.conventions.map fun c => .candidate r.clean c (r.candidate site c)

/-- The lines in the log for a reference. -/
def referenceEvents (site : Site) (r : Reference) : List Event :=
  match r.kind with
  | .dynamic => [.dynamicReference r.raw site.file]
  | .static => candidateEvents site r

/-- Adds the references of a file. -/
def indexFile (parser : ParserOf) (project : Path) (state : UsageIndex × Host) (file : Path) :
    UsageIndex × Host :=
  let (index, h) := state
  match h.look .read file (·.readText? file) with
  | (.error e, h) =>
    (index.addFailure (file.relativeTo project), h.report (.failed .read file e.message))
  | (.ok source, h) =>
    match parser.literals? file source with
    | none =>
      (index.addFailure (file.relativeTo project),
        h.report (.parseFailed .analysis file (Failure.parse file).message))
    | some literals =>
      let references := literals.flatMap Literal.references
      let site : Site := ⟨project, file⟩
      (references.foldl (UsageIndex.addReference site) index,
        h.reportAll (references.flatMap (referenceEvents site)))

/-- What the references of the sources name. -/
def indexUsages (parser : ParserOf) (codes : List Path) (project : Path) (h : Host) :
    UsageIndex × Host :=
  codes.foldl (indexFile parser project) (UsageIndex.empty, h)

/-- The images by their use. -/
structure Classification where
  used : List Path
  unused : List Path
  warnings : List Text
  parseFailures : List Path
  deriving DecidableEq, Inhabited

namespace Classification

/-- Nothing was found. -/
def empty : Classification := ⟨[], [], [], []⟩

/-- The images that an index names and those that it does not. -/
def ofIndex (index : UsageIndex) (images : List Path) : Classification :=
  { used := images.filter index.names, unused := images.filter fun i => !index.names i,
    warnings := index.warnings, parseFailures := index.parseFailures }

end Classification

/-- The lines in the log that tell what decides on use. -/
def usageEvents (project : Path) (images : List Path) (index : UsageIndex) : List Event :=
  [.targetDir project, .inventory images, .candidatePaths index.candidates,
   .publicUsages index.publicUsages]

/-- Tells the used images of a project from the unused ones. -/
def classify (parser : ParserOf) (codes images : List Path) (project : Path) (config : Config)
    (h : Host) : Classification × Host :=
  let (index, h) := indexUsages parser codes project h
  let images := distinct (images.map Path.normal)
  let h := if config.verbose then h.reportAll (usageEvents project images index) else h
  (.ofIndex index images, h)

end ImageMigration
