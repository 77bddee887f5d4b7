/-
Paths with `/` between their names.

A path is its text; what it means is its list of components. Empty names and `.` between slashes
are silent: they stand in the text and not in the components, a `.` in front of a relative path
excepted. Two paths that differ in silent names only denote the same place.

* `Path.components`: the meaning of a path;
* `Path.join`: a path seen from a directory; an absolute path replaces the directory;
* `Path.parent?`, `Path.fileName?`, `Path.extension?`, `Path.withExtension`: the parts of a path;
* `Path.endsWith`, `Path.stripPrefix?`: whole components, never parts of a name.
-/
import ImageMigration.Text

namespace ImageMigration

/-- A path, as written. -/
structure Path where
  text : Text
  deriving DecidableEq, Inhabited

namespace Path

/-- One step of a path. -/
inductive Component where
  | root
  | current
  | parent
  | name (n : Text)
  deriving DecidableEq, Inhabited

/-- How a step is written. -/
def Component.text : Component → Text
  | root => ['/']
  | current => ['.']
  | parent => ['.', '.']
  | name n => n

/-- Whether a path starts at the root. -/
def isAbsolute (p : Path) : Bool := p.text.head? == some '/'

/-- Names that take no step: the empty name and `.`. -/
def isSilent (segment : Text) : Bool := segment == [] || segment == ['.']

/-- The step of a name that is not silent. -/
def Component.ofSegment (segment : Text) : Component :=
  if segment = ['.', '.'] then parent else name segment

/-- Where a path starts. -/
inductive Start where
  /-- at the root -/
  | root
  /-- at the current directory, written out as `.` -/
  | current
  /-- at the current directory, left out -/
  | implicit
  deriving DecidableEq

/-- The step that the start of a path takes, if it is written. -/
def Start.component? : Start → Option Component
  | root => some .root
  | current => some .current
  | implicit => none

/-- A path as its start and the names behind it, silent ones included. -/
def segments (p : Path) : Start × List Text :=
  match p.text with
  | '/' :: rest => (.root, Text.split '/' rest)
  | text =>
    match Text.split '/' text with
    | ['.'] :: names => (.current, names)
    | names => (.implicit, names)

/-- The path with a given start and names. -/
def ofSegments : Start → List Text → Path
  | .root, names => ⟨'/' :: Text.join '/' names⟩
  | .current, [] => ⟨['.']⟩
  | .current, names => ⟨'.' :: '/' :: Text.join '/' names⟩
  | .implicit, names => ⟨Text.join '/' names⟩

/-- The steps of a path. -/
def components (p : Path) : List Component :=
  let (start, names) := p.segments
  start.component?.toList ++ (names.filter fun n => !isSilent n).map Component.ofSegment

/-- A path seen from a directory: an absolute one stays as it is. -/
def join (dir p : Path) : Path :=
  if p.isAbsolute || dir.text.isEmpty then p
  else if dir.text.getLast? = some '/' then ⟨dir.text ++ p.text⟩
  else ⟨dir.text ++ '/' :: p.text⟩

/-- Names without the silent ones at their end. -/
def dropSilentEnd (names : List Text) : List Text := (names.reverse.dropWhile isSilent).reverse

/-- The path without its last step. The root and the empty path have none. -/
def parent? (p : Path) : Option Path :=
  let (start, names) := p.segments
  match dropSilentEnd names, start with
  | [], .current => some ⟨[]⟩
  | [], _ => none
  | names, start => some (ofSegments start (dropSilentEnd names.dropLast))

/-- The last step of a path, if it is a name. -/
def fileName? (p : Path) : Option Text :=
  match p.components.getLast? with
  | some (.name n) => some n
  | _ => none

/-- A file name cut at its last point. A point in front belongs to the stem. -/
def splitName (name : Text) : Text × Option Text :=
  match Text.splitLast? '.' name with
  | none => (name, none)
  | some ([], _) => (name, none)
  | some (stem, extension) => (stem, some extension)

/-- What stands behind the last point of the file name. -/
def extension? (p : Path) : Option Text := p.fileName?.bind fun n => (splitName n).2

/-- The path cut behind the stem of its file name, and the extension added there. A path without a
file name stays as it is. -/
def setExtension (p : Path) (extension : Text) : Path :=
  match p.fileName? with
  | none => p
  | some name =>
    let (start, names) := p.segments
    let body := (ofSegments start (dropSilentEnd names)).text
    let kept := body.take (body.length - (name.length - (splitName name).1.length))
    ⟨if extension.isEmpty then kept else kept ++ '.' :: extension⟩

/-- The path with another extension: the old one is cut off together with whatever silent names
stand behind it, and the new one takes its place. -/
def withExtension (p : Path) (extension : Text) : Path :=
  let old := (p.extension?.getD []).length
  setExtension ⟨p.text.take (p.text.length - old)⟩ extension

/-- Whether the last components of a path are those of another. -/
def endsWith (p ending : Path) : Bool := ending.components.isSuffixOf p.components

/-- Drops a number of steps from a list of names, silent names being passed over. -/
def dropSteps : Nat → List Text → List Text
  | 0, names => names.dropWhile isSilent
  | _ + 1, [] => []
  | n + 1, name :: names => if isSilent name then dropSteps (n + 1) names else dropSteps n names

/-- The rest of a path below a directory, if it lies there. -/
def stripPrefix? (p dir : Path) : Option Path :=
  if dir.components.isPrefixOf p.components then
    let (start, names) := p.segments
    match dir.components.length with
    | 0 => some (ofSegments start (dropSilentEnd names))
    | n + 1 =>
      let steps := if start = .implicit then n + 1 else n
      some ⟨Text.join '/' (dropSilentEnd (dropSteps steps names))⟩
  else none

/-- The path below a directory, or the whole path when it lies elsewhere. -/
def relativeTo (p dir : Path) : Path := (p.stripPrefix? dir).getD p

/-- Whether two paths take the same steps. -/
def same (p q : Path) : Bool := p.components == q.components

end Path

end ImageMigration
