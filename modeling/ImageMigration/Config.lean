/-
The configuration of a run.

* `Config`: the settings; `Config.default` their defaults;
* `Config.check?`: why a configuration cannot be used, if it cannot.
-/
import ImageMigration.Event
import ImageMigration.Host

namespace ImageMigration

/-- The settings of a run. -/
structure Config where
  /-- the directory of the project -/
  targetDir : Path
  /-- nothing is written or deleted -/
  dryRun : Bool
  /-- the quality of new images, from 0 to 100 -/
  quality : Nat
  /-- images that were converted and unused images are deleted -/
  deleteReplaced : Bool
  /-- the sets that decide on use are logged -/
  verbose : Bool
  /-- how deep directories are searched -/
  maxDepth : Option Nat
  /-- names of directories that are not searched, besides the built-in ones -/
  extraIgnoredDirs : List Text
  logLevel : Level
  deriving DecidableEq, Inhabited

namespace Config

/-- The settings that hold where nothing else is said. -/
def default : Config :=
  { targetDir := ⟨['.']⟩, dryRun := false, quality := 80, deleteReplaced := false,
    verbose := false, maxDepth := none, extraIgnoredDirs := [], logLevel := .info }

/-- The default settings for a project. -/
def forDir (dir : Path) : Config := { default with targetDir := dir }

/-- Why a configuration cannot be used on a machine, if it cannot. -/
def check? (config : Config) (disk : Disk) : Option Failure :=
  if 100 < config.quality then some (.configuration .quality)
  else if !disk.isDir config.targetDir then some (.fileNotFound config.targetDir)
  else none

end Config

/-- A directory as an absolute path in normal form. -/
def Disk.absoluteDir (d : Disk) (dir : Path) : Path :=
  if dir.isAbsolute then dir.normal
  else ((Path.ofSegments .root d.workingDir).join dir).normal

end ImageMigration
