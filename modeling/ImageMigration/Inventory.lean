/-
The files that a run starts from.

A project is searched for images and for source files. Directories of dependencies and of build
products are passed over at any depth, the project's own directory excepted; links are not
followed; a directory that cannot be listed is reported and passed over.

* `Disk.visits`: the files and the unlistable directories under a directory, in the order in which
  directories list them; `Disk.visitsFrom`: the same where no directory may be;
* `Inventory.scan`: both kinds of files, in the order of paths.
-/
import ImageMigration.Config
import ImageMigration.Inventory.Name
import ImageMigration.Path.Order

namespace ImageMigration

/-- The directories that are never searched. -/
def ignoredDirs : List Text :=
  ["node_modules".toList, "dist".toList, "build".toList, ".next".toList, ".git".toList]

/-- Whether a directory of this name is passed over. -/
def Config.ignores (config : Config) (name : Text) : Bool :=
  ignoredDirs.contains name || config.extraIgnoredDirs.contains name

/-- What a search comes across. -/
inductive Visit where
  | file (path : Path)
  | unlistable (dir : Path) (e : OsError)
  deriving DecidableEq

/-- What a search comes across below a directory at the given depth. The first argument bounds the
depth of the tree. -/
def Disk.visitsFor (d : Disk) (config : Config) : Nat → Path → Nat → List Visit
  | 0, _, _ => []
  | fuel + 1, dir, depth =>
    if config.maxDepth.any (· ≤ depth) then []
    else match d.list? dir with
      | .error e => [.unlistable dir e]
      | .ok entries =>
        entries.flatMap fun (name, node) =>
          match node.content with
          | .file _ => [.file (dir.join ⟨name⟩)]
          | .link _ => []
          | .dir =>
            if config.ignores name then []
            else d.visitsFor config fuel (dir.join ⟨name⟩) (depth + 1)

/-- What a search of a project comes across. -/
def Disk.visits (d : Disk) (config : Config) (root : Path) : List Visit :=
  d.visitsFor config d.height root 0

/-- What a search that starts at a path comes across. A link to a directory is followed there. Where
no directory is, a file is come across itself. -/
def Disk.visitsFrom (d : Disk) (config : Config) (start : Path) : List Visit :=
  if d.isDir start then d.visits config start
  else match d.find? false start, d.find? true start with
    | .ok (_, ⟨.file _, _⟩), _ => [.file start]
    | _, .ok _ => []
    | _, .error e => [.unlistable start e]

/-- The file that was come across. -/
def Visit.file? : Visit → Option Path
  | file path => some path
  | unlistable _ _ => none

/-- The line in the log for what was come across. -/
def Visit.event? : Visit → Option Event
  | file _ => none
  | unlistable dir e => some (.unreadableEntry dir e)

/-- The files of one kind among what was come across, in the order of paths. -/
def filesOf (keep : Path → Bool) (visits : List Visit) : List Path :=
  Path.sort ((visits.filterMap Visit.file?).filter keep)

/-- The images and the source files of a project. -/
structure Inventory where
  images : List Path
  codes : List Path
  deriving DecidableEq, Inhabited

namespace Inventory

/-- Nothing was found. -/
def empty : Inventory := ⟨[], []⟩

/-- The files among what was come across. -/
def ofVisits (visits : List Visit) : Inventory :=
  ⟨filesOf Path.isImage visits, filesOf Path.isCode visits⟩

/-- Searches a project. The two kinds of files are searched for one after the other, so that a
directory that cannot be listed is reported twice. The search starts at the normal form of the path,
which need not denote the same when the path leads up from a link. -/
def scan (h : Host) (target : Path) (config : Config) : Except Failure Inventory × Host :=
  if !h.disk.isDir target then (.error (.fileNotFound target), h)
  else
    let visits := h.disk.visitsFrom config (h.disk.absoluteDir target)
    let events := visits.filterMap Visit.event?
    (.ok (ofVisits visits), h.reportAll (events ++ events))

end Inventory

end ImageMigration
