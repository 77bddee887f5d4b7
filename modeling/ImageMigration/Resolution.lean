/-
The files that a reference may denote.

Each convention of a web project is a rule: it names one path for a reference that stands in a
given file. A reference has one candidate for every rule of its style, in the order of the rules.

* `Reference.publicSuffix`, `Reference.aliasSuffix`: the reference without its mark;
* `Convention`, `Convention.all`, `Convention.resolve`: the rules;
* `Reference.candidates`: the normal forms of the paths that the rules name;
* `Path.endsWithUsage`: the loose test by which an image counts as named by a suffix.
-/
import ImageMigration.Path.Normal
import ImageMigration.Reference

namespace ImageMigration

/-- Where a reference stands: the file, and the project it belongs to. -/
structure Site where
  project : Path
  file : Path
  deriving DecidableEq, Inhabited

/-- The two shapes of references. -/
inductive Reference.Style where
  /-- `/images/a.png` -/
  | rootAbsolute
  /-- `./a.png`, `../a.png`, `assets/a.png`, `@/assets/a.png`, `~/a.png` -/
  | relative
  deriving DecidableEq, Inhabited

namespace Reference

/-- The shape of a reference. -/
def style (r : Reference) : Style := if r.isRootAbsolute then .rootAbsolute else .relative

/-- The reference without the slash in front. -/
def publicSuffix (r : Reference) : Text := (r.clean.dropStart? ['/']).getD r.clean

/-- The marks of an alias, each tried in turn. -/
def aliasMarkers : List Text := [['@', '/'], ['@'], ['~', '/'], ['~']]

/-- The reference without an alias mark in front and without the slashes behind it. -/
def aliasSuffix (r : Reference) : Text :=
  ((aliasMarkers.findSome? fun marker => r.clean.dropStart? marker).getD r.clean).dropWhile
    (· == '/')

end Reference

/-- The conventions by which projects name their files. -/
inductive Convention where
  | publicDir
  | projectRoot
  | srcPublicDir
  | relativeToFile
  | aliasRoot
  | aliasSrc
  deriving DecidableEq, Inhabited

namespace Convention

/-- The conventions in the order in which they are tried. -/
def all : List Convention :=
  [publicDir, projectRoot, srcPublicDir, relativeToFile, aliasRoot, aliasSrc]

/-- The name of a convention in the log. -/
def name : Convention → Text
  | publicDir => "public-dir".toList
  | projectRoot => "project-root".toList
  | srcPublicDir => "src-public-dir".toList
  | relativeToFile => "relative-to-file".toList
  | aliasRoot => "alias-root".toList
  | aliasSrc => "alias-src".toList

/-- The references that a convention speaks about. -/
def style : Convention → Reference.Style
  | publicDir | projectRoot | srcPublicDir => .rootAbsolute
  | relativeToFile | aliasRoot | aliasSrc => .relative

/-- The path that a convention names. The one relative to the file takes the reference exactly as
written, alias marks included. -/
def resolve (r : Reference) (site : Site) : Convention → Path
  | publicDir => (site.project.join ⟨"public".toList⟩).join ⟨r.publicSuffix⟩
  | projectRoot => site.project.join ⟨r.publicSuffix⟩
  | srcPublicDir =>
    ((site.project.join ⟨"src".toList⟩).join ⟨"public".toList⟩).join ⟨r.publicSuffix⟩
  | relativeToFile => (site.file.parent?.getD site.project).join ⟨r.clean⟩
  | aliasRoot => site.project.join ⟨r.aliasSuffix⟩
  | aliasSrc => (site.project.join ⟨"src".toList⟩).join ⟨r.aliasSuffix⟩

end Convention

namespace Reference

/-- The conventions that speak about a reference. -/
def conventions (r : Reference) : List Convention :=
  Convention.all.filter fun c => c.style == r.style

/-- The path that a convention gives a reference, in normal form. -/
def candidate (r : Reference) (site : Site) (c : Convention) : Path := (c.resolve r site).normal

/-- Every path that a reference may denote, in normal form. -/
def candidates (r : Reference) (site : Site) : List Path := r.conventions.map (r.candidate site)

end Reference

/-- Whether the text of an image path ends with a suffix, below `public` or anywhere. The test is
loose on purpose: an image that may be named is never called unused. -/
def Path.endsWithUsage (image : Path) (suffix : Text) : Bool :=
  !suffix.isEmpty &&
    (image.text.endsWith ((⟨"public".toList⟩ : Path).join ⟨suffix⟩).text ||
      image.text.endsWith suffix)

end ImageMigration
