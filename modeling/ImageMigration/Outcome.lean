/-
What became of an image, and which image a reference was converted to.

* `Outcome`: the result of re-encoding one image; `Outcome.failed`, `Outcome.savedBytes`,
  `Outcome.totalSaved`;
* `Lookup`: the converted images by their former paths, in the order of conversion;
  `Lookup.ofOutcomes` takes the outcomes that were not skipped;
* `Lookup.match?`: the converted image that a reference denotes. A candidate of the reference
  decides; without one, the first image whose path ends with the suffix of the reference.
-/
import ImageMigration.Resolution

namespace ImageMigration

/-- The result of re-encoding one image. -/
structure Outcome where
  image : Path
  /-- where the new image is, or would be in a dry run -/
  converted : Path
  oldSize : Nat
  newSize : Nat
  /-- the new image was not smaller, or something failed -/
  skipped : Bool
  error : Option Text
  deriving DecidableEq, Inhabited

namespace Outcome

/-- The outcome of an image that could not be converted. -/
def failed (image : Path) (error : Text) : Outcome :=
  { image, converted := ⟨[]⟩, oldSize := 0, newSize := 0, skipped := true,
    error := some error }

/-- The bytes saved; none when the image was skipped. -/
def savedBytes (o : Outcome) : Nat := if o.skipped then 0 else o.oldSize - o.newSize

/-- The bytes saved by all of them. -/
def totalSaved (outcomes : List Outcome) : Nat := outcomes.foldl (fun n o => n + o.savedBytes) 0

/-- Whether the outcome gives references a new target. -/
def isConverted (o : Outcome) : Bool := !o.skipped && !o.converted.text.isEmpty

end Outcome

/-- The converted images: normal form of the former path, normal form of the new one. -/
abbrev Lookup := List (Path × Path)

namespace Lookup

/-- The lookup with one more image. A path that is known keeps its place and gets the new target. -/
def insert (image converted : Path) : Lookup → Lookup
  | [] => [(image, converted)]
  | (i, c) :: rest =>
    if i = image then (i, converted) :: rest else (i, c) :: insert image converted rest

/-- The new path of an image. -/
def find? (lookup : Lookup) (image : Path) : Option Path :=
  (List.find? (fun entry => entry.1 == image) lookup).map Prod.snd

/-- The converted images among a list of outcomes. -/
def ofOutcomes (outcomes : List Outcome) : Lookup :=
  (outcomes.filter Outcome.isConverted).foldl
    (fun lookup o => insert o.image.normal o.converted.normal lookup) []

/-- The suffixes by which a reference is looked up when no candidate was converted. -/
def suffixes (r : Reference) : List Path :=
  match r.style with
  | .rootAbsolute => [(⟨"public".toList⟩ : Path).join ⟨r.publicSuffix⟩, ⟨r.publicSuffix⟩]
  | .relative => [⟨r.aliasSuffix⟩]

/-- The first image whose path ends with one of the suffixes, by whole components. -/
def findBySuffix? (lookup : Lookup) (suffixes : List Path) : Option Path :=
  (suffixes.filter fun s => !s.text.isEmpty).findSome? fun suffix =>
    (List.find? (fun entry => entry.1.endsWith suffix) lookup).map Prod.snd

/-- The converted image that a reference denotes. -/
def match? (lookup : Lookup) (r : Reference) (site : Site) : Option Path :=
  match (r.candidates site).findSome? lookup.find? with
  | some converted => some converted
  | none => lookup.findBySuffix? (suffixes r)

end Lookup

end ImageMigration
